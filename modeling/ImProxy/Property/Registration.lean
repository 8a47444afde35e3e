import ImProxy.Invariant.Entry
import ImProxy.Invariant.Loss

/-! # Who may unregister a connection

An entry of the registry is removed by the event loop of its own channel only and
replaced by the put of a CONNECT for the same client id only. Whatever an earlier
connection of that client id still does, the entry of the newer one stays. The
handling of a loss has no effect the second time.
-/

set_option autoImplicit false

namespace ImProxy

open Concurrent Transition

variable {g : Gateway} {s s' t : State} {choice : Choice} {f f' : Frame} {i : Instr}
  {x : ChannelId} {a : Action} {as : List Action} {c : String} {d : Descriptor}

/-- The steps that leave the entry of a client id to its channel: those of other event loops,
unless they put a descriptor for it. -/
def Spares (c : String) (y : ChannelId) : Condition State Action := fun s a =>
  a.thread ≠ some (.loop y) ∧ ∀ d ∈ s.puts a, d.clientID ≠ c

instance {c : String} {y : ChannelId} (s : State) : DecidablePred (Spares c y s) := fun _ =>
  inferInstanceAs (Decidable (_ ∧ _))

theorem entry_path (hr : (gateway g).Reachable s) (hd : s.connectionDescriptors.get c = some d)
    (h : (gateway g).Path (Spares c d.channel) s as t) :
    t.connectionDescriptors.get c = some d := by
  have : t.connectionDescriptors.get c = some d ∧ (gateway g).Reachable t := by
    refine h.invariant (P := fun u => u.connectionDescriptors.get c = some d ∧
      (gateway g).Reachable u) ⟨hd, hr⟩ ?_
    rintro a u v ⟨hu, hru⟩ ⟨hy, hp⟩ hs
    refine ⟨?_, hru.step hs⟩
    rcases entry_step hru (gateway_step.mp hs) hu with h | ⟨-, ht⟩ | ⟨e, -, -, he, hc⟩
    · exact h
    · exact absurd ht hy
    · exact absurd hc (hp e he)
  exact this.1

def HandlesLoss (x : ChannelId) : Condition State Action := fun _ a =>
  match a with
  | .inactive y => y = x
  | .readerIdle y => y = x
  | .run t _ => t = .loop x
  | _ => False

instance {x : ChannelId} (s : State) : DecidablePred (HandlesLoss x s) := fun a =>
  match a with
  | .inactive _ => inferInstanceAs (Decidable (_ = _))
  | .readerIdle _ => inferInstanceAs (Decidable (_ = _))
  | .run _ _ => inferInstanceAs (Decidable (_ = _))
  | .read _ _ => isFalse id
  | .exceptionCaught _ => isFalse id
  | .peerClose _ => isFalse id
  | .call _ _ => isFalse id
  | .task _ _ => isFalse id

/-- The registry and the channels are the same, up to the flag that Netty's own event has been
delivered. -/
structure SameState (s t : State) : Prop where

  connectionDescriptors : t.connectionDescriptors = s.connectionDescriptors

  channel : ∀ y, t.channel y =
    { s.channel y with deregistered := (t.channel y).deregistered }

theorem SameState.refl (s : State) : SameState s s := ⟨rfl, fun _ => rfl⟩

theorem SameState.trans {u : State} (h : SameState s t) (h' : SameState t u) : SameState s u :=
  ⟨h'.connectionDescriptors.trans h.connectionDescriptors, fun y => by
    rw [h'.channel y, h.channel y]⟩

theorem second_loss_step (hr : (gateway g).Reachable s) (hx : (s.channel x).lossHandled = true)
    (ha : HandlesLoss x s a) (h : Step g s a s') : SameState s s' := by
  have hl := reachable_loss hr x
  obtain ⟨hlost, hclosed⟩ := hl.handled hx
  cases h with
  | @inactive y hf hd =>
    cases (show y = x from ha)
    refine ⟨rfl, fun z => ?_⟩
    simp only [State.start_channel]
    split_ifs with hz
    · subst hz; simp [Channel.lose, hlost, hclosed]
    · rfl
  | @readerIdle y hf ho _ =>
    cases (show y = x from ha)
    simp [hclosed] at ho
  | read | exceptionCaught | peerClose | call | task => exact ha.elim
  | @run u choice i f hn =>
    cases (show u = .loop x from ha)
    rcases hl.frames hlost with ⟨hf | hf, -⟩ | ⟨b, hf⟩ | hf
    · rw [hf] at hn; cases hn
    · rw [hf] at hn
      cases hn
      refine ⟨rfl, fun y => ?_⟩
      simp only [State.setFrame_channel, State.exec, State.issue, State.update_channel]
      split_ifs with hy
      · subst hy; simp [Channel.run, hclosed]
      · rfl
    · have hb := (hl.connectionLost x b hf).2
      rw [hf] at hn
      cases hn
      refine ⟨Map.removeIf_eq_self _ fun e he => ?_, fun y => rfl⟩
      have := reachable_unregistered hr x (.inr hx) b e hb he
      simp [Descriptor.equals, Ne.symm this]
    · rw [hf] at hn
      cases hn
      refine ⟨rfl, fun y => ?_⟩
      simp only [State.setFrame_channel, State.exec, State.update_channel]
      split_ifs with hy
      · subst hy; simp [hclosed, hx]
      · rfl

/-- The handling of a loss that was handled before. -/
theorem second_loss (hr : (gateway g).Reachable s) (hx : (s.channel x).lossHandled = true)
    (h : (gateway g).Path (HandlesLoss x) s as t) : SameState s t := by
  have : SameState s t ∧ (gateway g).Reachable t := by
    refine h.invariant (P := fun u => SameState s u ∧ (gateway g).Reachable u) ⟨.refl s, hr⟩ ?_
    rintro a u v ⟨hu, hru⟩ ha hs
    refine ⟨hu.trans ?_, hru.step hs⟩
    have hxu : (u.channel x).lossHandled = true := by rw [hu.channel x]; exact hx
    exact second_loss_step hru hxu ha (gateway_step.mp hs)
  exact this.1

/-- A stale connection never unregisters a newer one. -/
theorem stale_never_unregisters (hr : (gateway g).Reachable s) :
    (∀ a s' c d, Step g s a s' → s.connectionDescriptors.get c = some d →
      s'.connectionDescriptors.get c = some d ∨
        s'.connectionDescriptors.get c = none ∧ a.thread = some (.loop d.channel) ∨
        ∃ e, s'.connectionDescriptors.get c = some e ∧ a.thread = some (.loop e.channel) ∧
          s.puts a = some e ∧ e.clientID = c) ∧
    (∀ as t c d, s.connectionDescriptors.get c = some d →
      (gateway g).Path (Spares c d.channel) s as t → t.connectionDescriptors.get c = some d) ∧
    ∀ as t x, (s.channel x).lossHandled = true → (gateway g).Path (HandlesLoss x) s as t →
      SameState s t :=
  ⟨fun _ _ _ _ h hd => entry_step hr h hd, fun _ _ _ _ hd h => entry_path hr hd h,
    fun _ _ _ hx h => second_loss hr hx h⟩

def takenOver : List Action :=
  join 0 "a" ++ takeOver 1 "a" ++ [.task 0 (.loop 1), .task 0 (.loop 1)]

theorem takenOver_survives_loss :
    (after (takenOver ++ .inactive 0 :: proceed 0 2)).connectionDescriptors.get "a" =
        some ⟨"a", 1, true, 0⟩ ∧
      SameState (after (join 0 "a" ++ .readerIdle 0 :: proceed 0 2))
        (after (join 0 "a" ++ .readerIdle 0 :: proceed 0 2 ++ .inactive 0 :: proceed 0 2)) :=
  ⟨(stale_never_unregisters (reachable_after (by decide))).2.1 _ _ _ _ (by decide)
      (path_after (by decide) (by decide)),
    (stale_never_unregisters (reachable_after (by decide))).2.2 _ _ 0 (by decide)
      (path_after (by decide) (by decide))⟩

end ImProxy
