import ImProxy.Invariant.Registry

/-! # The loss of a channel

Once a `channelInactive` event of a channel is delivered nothing more is read from
it, and its event loop only handles the loss: it removes the registry entry of the
client id the channel carries and closes the channel. The handling may run twice,
for the read-idle event and for the real one; between the two the channel is closed
and no entry under its client id is left.
-/

set_option autoImplicit false

namespace ImProxy

open Concurrent Transition

variable {g : Gateway} {s s' : State} {t u : Thread} {choice : Choice} {f f' : Frame} {i : Instr}
  {x y : ChannelId} {a : Action} {d : Descriptor} {c : Channel}

/-- Where the handling of a loss stands. -/
structure Loss (x : ChannelId) (c : Channel) (f : Frame) : Prop where

  frames : c.lost = true → (f = .idle ∨ f = .close x) ∧ c.lossHandled = true ∨
    (∃ a, f = .connectionLost x a) ∨ f = .inactiveClose x

  connectionLost : ∀ y a, f = .connectionLost y a → c.lost = true ∧ c.attributes.clientID = some a

  inactiveClose : ∀ y, f = .inactiveClose y → c.lost = true

  handled : c.lossHandled = true → c.lost = true ∧ c.isOpen = false

def Frame.isLoss : Frame → Bool
  | .connectionLost _ _ => true
  | .inactiveClose _ => true
  | _ => false

theorem Frame.Begins.isLoss (h : f.Begins x) : f.isLoss = false := by
  cases h <;> rfl

theorem next_isLoss (hf : f.isLoss = false) (h : next g s t choice f = some (i, f')) :
    f'.isLoss = false ∧ ∀ x, i ≠ .closeLost x := by
  cases next_statement h
  case filterThrown => cases t <;> exact ⟨rfl, by simp⟩
  case connectionLost | inactiveClose => cases hf
  all_goals exact ⟨rfl, by simp⟩

namespace Loss

/-- While the channel is not lost, its frames do not handle a loss. -/
theorem of_not_lost (h : Loss x c f) (hl : c.lost = false) {c' : Channel} (hl' : c'.lost = false)
    (hh : c'.lossHandled = c.lossHandled) (hf' : f'.isLoss = false) : Loss x c' f' where
  frames hl := by simp [hl'] at hl
  connectionLost y a he := by simp [he, Frame.isLoss] at hf'
  inactiveClose y he := by simp [he, Frame.isLoss] at hf'
  handled hh' := absurd (h.handled (hh ▸ hh')).1 (by simp [hl])

theorem isLoss_eq (h : Loss x c f) (hl : c.lost = false) : f.isLoss = false := by
  cases f with
  | connectionLost y a => exact absurd (h.connectionLost y a rfl).1 (by simp [hl])
  | inactiveClose y => exact absurd (h.inactiveClose y rfl) (by simp [hl])
  | _ => rfl

theorem start (c' : Channel) (hl : c'.lost = true) (ha : c'.attributes = c.attributes)
    (hh : c'.lossHandled = true → c'.isOpen = false) : Loss x c' (channelInactive x c) := by
  unfold channelInactive
  split
  · exact ⟨fun _ => .inr (.inr rfl), by simp, fun _ _ => hl, fun h => ⟨hl, hh h⟩⟩
  · next a hc =>
    split_ifs
    · exact ⟨fun _ => .inr (.inr rfl), by simp, fun _ _ => hl, fun h => ⟨hl, hh h⟩⟩
    · refine ⟨fun _ => .inr (.inl ⟨a, rfl⟩), ?_, by simp, fun h => ⟨hl, hh h⟩⟩
      rintro _ _ ⟨⟩
      exact ⟨hl, ha ▸ hc⟩

theorem idle {c' : Channel} (h : Loss x c .idle) (hf : f = .idle ∨ f = .close x)
    (hl : c'.lost = c.lost) (hh : c'.lossHandled = c.lossHandled)
    (ho : c'.isOpen = true → c.isOpen = true) : Loss x c' f where
  frames hl' := by
    rcases h.frames (hl ▸ hl') with ⟨-, hh'⟩ | ⟨a, ha⟩ | ha
    · exact .inl ⟨hf, hh.trans hh'⟩
    · cases ha
    · cases ha
  connectionLost y a he := by rcases hf with rfl | rfl <;> cases he
  inactiveClose y he := by rcases hf with rfl | rfl <;> cases he
  handled hh' := by
    obtain ⟨h₁, h₂⟩ := h.handled (hh ▸ hh')
    refine ⟨hl.trans h₁, ?_⟩
    by_contra hc
    rw [ho (by simpa using hc)] at h₂
    cases h₂

theorem local_invariant : LocalInvariant g System.always x (Loss x) where
  tasks ts h := ⟨h.frames, h.connectionLost, h.inactiveClose, h.handled⟩
  init := ⟨by simp [Channel.init], by simp, by simp, by simp [Channel.init]⟩
  read p _ _ hl h := h.of_not_lost hl hl rfl (channelRead_begins ..).isLoss
  lose h := start _ rfl rfl fun _ => rfl
  readerIdle h ho := start _ rfl rfl fun hh => absurd ho (by simp [(h.handled hh).2])
  exceptionCaught h := h.idle (.inr rfl) rfl rfl id
  peerClose h := h.idle (.inl rfl) rfl rfl fun ho => by cases ho
  task t k ks _ _ _ h := by
    refine h.idle (.inl rfl) (by simp) (by simp) fun ho => ?_
    cases k with
    | write w => simpa using ho
    | close => cases ho
  run {s choice i f} _ _ _ hn h := by
    cases hl : (s.channel x).lost with
    | false =>
      obtain ⟨hf', hi⟩ := next_isLoss (h.isLoss_eq hl) hn
      refine h.of_not_lost hl (by simpa using hl) ?_ hf'
      rw [State.exec_lossHandled]
      cases i <;> first | rfl | exact absurd rfl (hi _)
    | true =>
      rcases h.frames hl with ⟨hf | hf, hh⟩ | ⟨a, hf⟩ | hf
      · rw [hf] at hn; cases hn
      · rw [hf] at hn h
        cases hn
        refine ⟨fun _ => .inl ⟨.inl rfl, ?_⟩, by simp, by simp, fun _ => ⟨?_, ?_⟩⟩
        · rw [State.exec_lossHandled]; exact hh
        · rw [State.exec_lost]; exact hl
        · rw [State.exec_isOpen]; simp
      · rw [hf] at hn h
        cases hn
        refine ⟨fun _ => .inr (.inr rfl), by simp, fun _ _ => ?_, fun hh => ?_⟩
        · rw [State.exec_lost]; exact hl
        · rw [State.exec_lossHandled] at hh
          rw [State.exec_lost, State.exec_isOpen]
          exact h.handled hh
      · rw [hf] at hn
        cases hn
        refine ⟨fun _ => .inl ⟨.inl rfl, ?_⟩, by simp, by simp, fun _ => ⟨?_, ?_⟩⟩
        · rw [State.exec_lossHandled]; simp
        · rw [State.exec_lost]; exact hl
        · rw [State.exec_isOpen]; simp

end Loss

theorem reachable_loss (h : (gateway g).Reachable s) (x : ChannelId) :
    Loss x (s.channel x) (s.frame (.loop x)) := Loss.local_invariant.reachable h

/-! ## Cleanup -/

theorem clientID_ne (h : Lifecycle g x c f) {b : String}
    (hb : c.attributes.clientID = some b) : b ≠ "" := by
  rw [h.clientID] at hb
  obtain ⟨msg, hm, rfl⟩ := Option.map_eq_some_iff.mp hb
  have hp : msg ∈ c.connects := by
    have hm := List.mem_of_getLast? hm
    unfold Channel.past at hm
    split_ifs at hm
    · exact List.mem_of_mem_dropLast hm
    · exact hm
  exact (h.passed msg hp).clientId_ne

/-- From the removal on, no entry under its client id holds a descriptor of a lost channel. -/
def Unregistered (s : State) (x : ChannelId) : Prop :=
  s.frame (.loop x) = .inactiveClose x ∨ (s.channel x).lossHandled = true →
    ∀ c d, (s.channel x).attributes.clientID = some c →
      s.connectionDescriptors.get c = some d → d.channel ≠ x

theorem Unregistered.run (hs : Unregistered s x)
    (hl : Loss x (s.channel x) (s.frame (.loop x))) (hr : Registry g s)
    (hn : next g s (.loop x) choice (s.frame (.loop x)) = some (i, f)) :
    Unregistered ((s.exec (.loop x) i).setFrame (.loop x) f) x := by
  intro hx c d ha hd hdx
  rw [State.setFrame_frame_self, State.setFrame_channel] at hx
  rw [State.setFrame_channel, State.exec_attributes] at ha
  rw [State.setFrame_connectionDescriptors, State.exec_connectionDescriptors] at hd
  cases hlost : (s.channel x).lost with
  | false =>
    have hloss := next_isLoss (hl.isLoss_eq hlost) hn
    rcases hx with rfl | hh
    · cases hloss.1
    · have hh' : (s.channel x).lossHandled = true := by
        rw [State.exec_lossHandled] at hh
        cases i <;> first | exact hh | exact absurd rfl (hloss.2 _)
      simp [(hl.handled hh').1] at hlost
  | true =>
    rcases hl.frames hlost with ⟨hf | hf, hh⟩ | ⟨b, hf⟩ | hf
    · rw [hf] at hn; cases hn
    · rw [hf] at hn
      cases hn
      exact hs (.inr hh) c d ha hd hdx
    · have hb := (hl.connectionLost x b hf).2
      rw [hf] at hn
      cases hn
      obtain ⟨hold, hne⟩ := (Map.get_removeIf_eq_some _).mp hd
      cases hb.symm.trans ha
      simpa [Descriptor.equals, (hr.entries _ d hold).1, hdx] using hne rfl
    · rw [hf] at hn
      cases hn
      exact hs (.inl hf) c d ha hd hdx

theorem Unregistered.step (hr : (gateway g).Reachable s) (hs : Unregistered s x)
    (h : Step g s a s') : Unregistered s' x := by
  have hl := reachable_loss hr x
  have ho := reachable_owned hr
  by_cases ha : ∃ choice, a = .run (.loop x) choice
  · obtain ⟨choice, rfl⟩ := ha
    cases h with
    | run hn => exact hs.run hl (reachable_registry hr) hn
  intro hx c d hc hd hdx
  have hstep := h.onLoop (reachable_neverNotified hr) ho x
  generalize s'.channel x = c', s'.frame (.loop x) = f' at hstep hx hc
  -- the handling of the loss starts with the removal
  have start : channelInactive x (s.channel x) = .inactiveClose x →
      (s.channel x).attributes.clientID ≠ some c := by
    intro hi hc
    simp [channelInactive, hc, clientID_ne (reachable_lifecycle hr x) hc] at hi
  have old : (s.frame (.loop x) = .inactiveClose x ∨ (s.channel x).lossHandled = true) ∧
      (s.channel x).attributes.clientID = some c := by
    cases hstep with
    | foreign _ => exact ⟨hx, hc⟩
    | @read p _ hlost =>
      rcases hx with hx | hx
      · have hb := (channelRead_begins g x (s.channel x) p).isLoss
        rw [hx] at hb
        cases hb
      · simp [(hl.handled hx).1] at hlost
    | inactive _ | readerIdle _ _ => exact ⟨.inr (hx.resolve_left fun hi => start hi hc), hc⟩
    | exceptionCaught _ | peerClose _ => exact ⟨.inr (hx.resolve_left nofun), hc⟩
    | task _ _ => exact ⟨.inr (by simpa using hx), by simpa using hc⟩
    | run _ => exact absurd ⟨_, rfl⟩ ha
  exact hs old.1 c d old.2 (h.get_old ho ha hd hdx) hdx

theorem reachable_unregistered (h : (gateway g).Reachable s) (x : ChannelId) : Unregistered s x :=
  h.invariant (P := fun s => Unregistered s x) (by simp [Unregistered, State.init, Channel.init])
    fun _ _ _ hr hs ht => hs.step hr (gateway_step.mp ht)

end ImProxy
