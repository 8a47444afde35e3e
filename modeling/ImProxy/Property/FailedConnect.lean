import ImProxy.Gateway.Scenario
import ImProxy.Invariant.History

/-! # A CONNECT that fails

The handler of a CONNECT runs from any reachable state to its end. It fails by a
refusal, which touches nothing but its own channel, or on a channel whose pipeline
already has an auto-flusher, by the exception of `setupAutoFlusher`. By then the
descriptor is in the registry, the previous connection is evicted and the CONNACK
is written, and nothing takes that back.
-/

set_option autoImplicit false

namespace ImProxy

open Concurrent Transition

variable {g : Gateway} {s u t : State} {choice : Choice} {f f' : Frame} {i : Instr}
  {x y : ChannelId} {a : Action} {as : List Action} {c : String} {d p : Descriptor}
  {msg : MqttConnectMessage} {l : ConnectLine}

/-- An event starts a handler of a channel that runs to its end with no step of another thread
in between. -/
def Handled (g : Gateway) (x : ChannelId) (s : State) (a : Action) (t : State) : Prop :=
  ∃ u as, Step g s a u ∧
    (gateway g).Path (fun _ b => b.thread = some (.loop x)) u as t ∧ t.frame (.loop x) = .idle

/-- Apart from its own channel and entries of its own channel, a failed CONNECT has changed
nothing, and it was not acknowledged. -/
structure Untouched (x : ChannelId) (s t : State) : Prop where

  others : ∀ y, y ≠ x → t.channel y = s.channel y

  entries : ∀ c e, s.connectionDescriptors.get c = some e → e.channel ≠ x →
    t.connectionDescriptors.get c = some e

  refused : ∀ w ∈ (t.channel x).sent.drop (s.channel x).sent.length, w.packet.isAccepted = false

def State.descriptorOf (s : State) (x : ChannelId) (msg : MqttConnectMessage) : Descriptor :=
  newDescriptor msg x (s.channel x).descriptors.length

def State.previous (s : State) (msg : MqttConnectMessage) : Option Descriptor :=
  s.connectionDescriptors.get msg.clientId

/-- If the CONNECT does not bring its descriptor to ESTABLISHED nothing else has changed. -/
def FailsAtomically (x : ChannelId) (msg : MqttConnectMessage) (s t : State) : Prop :=
  t.descriptorState (s.descriptorOf x msg) ≠ some .established → Untouched x s t

/-- Where the CONNECT stands when it is at a statement. -/
structure Progress (s : State) (x : ChannelId) (msg : MqttConnectMessage) (u : State)
    (k : ℕ) : Prop where

  registry : u.connectionDescriptors =
    if k ≤ 1 then s.connectionDescriptors
    else s.connectionDescriptors.put msg.clientId (s.descriptorOf x msg)

  others : ∀ y, y ≠ x → (∀ p, s.previous msg = some p → p.channel ≠ y) →
    u.channel y = s.channel y

  connects : (u.channel x).connects = (s.channel x).connects ++ [msg]

  isOpen : (u.channel x).isOpen = true ↔ (s.channel x).isOpen = true ∧
    (k ≤ 3 ∨ ∀ p, s.previous msg = some p → p.channel ≠ x)

  sent : ∃ ws, (u.channel x).sent = (s.channel x).sent ++ ws ∧
    ((∃ w ∈ ws, w.packet.isAccepted = true) ↔ 9 < k ∧ (s.channel x).isOpen = true ∧
      ∀ p, s.previous msg = some p → p.channel ≠ x)

def ConnectLine.Carries (previous : Option Descriptor) : ConnectLine → Prop
  | .put p => p = previous
  | .evictWrite p => previous = some p
  | .evictAbort p => previous = some p
  | l => l.stage ≠ 1 ∧ l.stage ≠ 2 ∧ l.stage ≠ 3

namespace Progress

theorem own {k k' : ℕ} (h : Progress s x msg u k) (hi : i.isSetup = true ∨ i = .skip)
    (ho : i.Of (.loop x)) (h₁ : k ≤ 1 ↔ k' ≤ 1) (h₃ : k ≤ 3 ↔ k' ≤ 3) (h₉ : 9 < k ↔ 9 < k') :
    Progress s x msg ((u.exec (.loop x) i).setFrame (.loop x) f) k' := by
  have hreg : (u.exec (.loop x) i).connectionDescriptors = u.connectionDescriptors := by
    rw [State.exec_connectionDescriptors]
    cases i <;> first | rfl | simp [Instr.isSetup] at hi
  have hopen : ((u.exec (.loop x) i).channel x).isOpen = (u.channel x).isOpen := by
    rw [State.exec_isOpen]
    cases i <;> first | rfl | simp [Instr.isSetup] at hi
  have hsent : ((u.exec (.loop x) i).channel x).sent = (u.channel x).sent := by
    rw [State.exec_sent]
    cases i <;> first | rfl | simp [Instr.isSetup] at hi
  have hch : ∀ y, y ≠ x → (u.exec (.loop x) i).channel y = u.channel y := by
    intro y hy
    cases i with
    | skip => rfl
    | attr z b => cases Instr.attr_of.mp ho; rw [State.exec, State.update_channel_of_ne _ _ hy]
    | pipeline z p =>
      cases Instr.pipeline_of.mp ho
      rw [State.exec, State.update_channel_of_ne _ _ hy]
    | assignState e st =>
      cases (show e.channel = x from ho)
      rw [State.exec, State.update_channel_of_ne _ _ hy]
    | _ => simp [Instr.isSetup] at hi
  constructor
  · rw [State.setFrame_connectionDescriptors, hreg, h.registry]
    simp only [h₁]
  · intro y hy hp
    rw [State.setFrame_channel, hch y hy]
    exact h.others y hy hp
  · rw [State.setFrame_channel, exec_connects]
    exact h.connects
  · rw [State.setFrame_channel, hopen, h.isOpen, h₃]
  · rw [State.setFrame_channel, hsent, ← h₉]
    exact h.sent

theorem put {k' : ℕ} (h : Progress s x msg u 1) (h₁ : 1 < k') (h₉ : k' ≤ 9)
    (h₃ : k' ≤ 3 ∨ s.previous msg = none) :
    Progress s x msg
      ((u.exec (.loop x) (.put (s.descriptorOf x msg))).setFrame (.loop x) f) k' := by
  constructor
  · rw [if_neg (by omega)]
    simp only [State.setFrame_connectionDescriptors, State.exec, h.registry]
    rfl
  · exact h.others
  · exact h.connects
  · refine h.isOpen.trans (and_congr_right' (iff_of_true (.inl (by decide)) ?_))
    exact h₃.imp_right fun hp => by simp [hp]
  · obtain ⟨ws, hws, ha⟩ := h.sent
    refine ⟨ws, hws, ha.trans ?_⟩
    constructor
    · rintro ⟨h, -⟩; omega
    · rintro ⟨h, -⟩; omega

theorem evictWrite (h : Progress s x msg u 2) (hp : s.previous msg = some p) :
    Progress s x msg
      ((u.exec (.loop x) (.write p.channel (beExited g))).setFrame (.loop x) f) 3 := by
  constructor
  · exact h.registry
  · intro y hy hp'
    rw [State.setFrame_channel, State.exec, State.issue,
      State.update_channel_of_ne _ _ (Ne.symm (hp' p hp))]
    exact h.others y hy hp'
  · rw [State.setFrame_channel, exec_connects]; exact h.connects
  · rw [State.setFrame_channel, State.exec_isOpen]
    exact h.isOpen.trans (by simp)
  · obtain ⟨ws, hws, ha⟩ := h.sent
    rw [State.setFrame_channel, State.exec_sent]
    simp only
    split_ifs
    · refine ⟨ws ++ [⟨beExited g, .loop x, u.request (.loop x)⟩], ?_, ?_⟩
      · rw [hws, List.append_assoc]
      · have : (beExited g).isAccepted = false := rfl
        simpa [or_and_right, exists_or, this] using ha
    · exact ⟨ws, hws, ha.trans (by simp)⟩

theorem evictAbort (h : Progress s x msg u 3) (hp : s.previous msg = some p) :
    Progress s x msg ((u.exec (.loop x) (.close p.channel)).setFrame (.loop x) f) 4 := by
  constructor
  · exact h.registry
  · intro y hy hp'
    rw [State.setFrame_channel, State.exec, State.issue,
      State.update_channel_of_ne _ _ (Ne.symm (hp' p hp))]
    exact h.others y hy hp'
  · rw [State.setFrame_channel, exec_connects]; exact h.connects
  · have := h.isOpen
    rw [State.setFrame_channel, State.exec_isOpen]
    simp only [hp, Option.some.injEq, forall_eq'] at this ⊢
    by_cases hx : p.channel = x
    · simp [hx]
    · simp [hx, Ne.symm hx, this]
  · obtain ⟨ws, hws, ha⟩ := h.sent
    rw [State.setFrame_channel, State.exec_sent]
    exact ⟨ws, hws, ha.trans (by simp)⟩

theorem connAck (h : Progress s x msg u 9) :
    Progress s x msg ((u.exec (.loop x) (.write x
      (connAck .connectionAccepted !msg.isCleanSession))).setFrame (.loop x) f) 10 := by
  constructor
  · exact h.registry
  · intro y hy hp'
    rw [State.setFrame_channel, State.exec, State.issue, State.update_channel_of_ne _ _ hy]
    exact h.others y hy hp'
  · rw [State.setFrame_channel, exec_connects]; exact h.connects
  · rw [State.setFrame_channel, State.exec_isOpen]
    exact h.isOpen.trans (by simp)
  · obtain ⟨ws, hws, ha⟩ := h.sent
    have ho := h.isOpen
    simp only [show ¬(9 ≤ 3) by decide, false_or] at ho
    rw [State.setFrame_channel, State.exec_sent]
    simp only [true_and]
    split_ifs with hopen
    · refine ⟨ws ++ [⟨_, .loop x, u.request (.loop x)⟩], by rw [hws, List.append_assoc], ?_⟩
      refine iff_of_true ⟨_, List.mem_append_right _ (List.mem_singleton_self _), rfl⟩ ?_
      exact ⟨by decide, ho.mp hopen⟩
    · refine ⟨ws, hws, ha.trans (iff_of_false (by simp) fun h => hopen (ho.mpr h.2))⟩

theorem run (hr : (gateway g).Reachable u) (h : Progress s x msg u l.stage)
    (hf : u.frame (.loop x) = .connect msg (s.descriptorOf x msg) l)
    (hl : l.Carries (s.previous msg))
    (hn : next g u (.loop x) choice (.connect msg (s.descriptorOf x msg) l) = some (i, f)) :
    (∃ l', f = .connect msg (s.descriptorOf x msg) l' ∧ l'.Carries (s.previous msg) ∧
        l.stage < l'.stage ∧
        Progress s x msg ((u.exec (.loop x) i).setFrame (.loop x) f) l'.stage) ∨
      l = .token ∧ f = .idle ∧ Progress s x msg ((u.exec (.loop x) i).setFrame (.loop x) f) 16 ∨
      l = .autoFlusher ∧ f = .close x ∧
        Progress s x msg ((u.exec (.loop x) i).setFrame (.loop x) f) 16 := by
  obtain ⟨-, -, hst, hlt, -⟩ := (reachable_lifecycle hr x).connecting _ _ _ hf
  have hst' : u.descriptorState (s.descriptorOf x msg) = some l.state := hst
  have ho := (next_of (hf ▸ reachable_owned hr (.loop x)) hn).1
  generalize hd : s.descriptorOf x msg = d at *
  have hx : d.channel = x := by rw [← hd]; rfl
  have hid : d.clientID = msg.clientId := by rw [← hd]; rfl
  subst hx
  cases next_statement hn with
  | get =>
    refine .inl ⟨_, rfl, ?_, by simp [ConnectLine.stage],
      h.own (.inr rfl) ho ?_ ?_ ?_⟩
    · rw [ConnectLine.Carries, h.registry, hid]; rfl
    all_goals simp [ConnectLine.stage]
  | putNew =>
    refine .inl ⟨_, rfl, by simp [ConnectLine.Carries, ConnectLine.stage],
      by simp [ConnectLine.stage], ?_⟩
    rw [← hd]
    exact h.put (by decide) (by decide) (.inr (Eq.symm hl))
  | putOver =>
    refine .inl ⟨_, rfl, Eq.symm hl, by simp [ConnectLine.stage], ?_⟩
    rw [← hd]
    exact h.put (by simp [ConnectLine.stage]) (by simp [ConnectLine.stage])
      (.inl (by simp [ConnectLine.stage]))
  | evictWrite => exact .inl ⟨_, rfl, hl, by simp [ConnectLine.stage], h.evictWrite hl⟩
  | evictAbort =>
    exact .inl ⟨_, rfl, by simp [ConnectLine.Carries, ConnectLine.stage],
      by simp [ConnectLine.stage], h.evictAbort hl⟩
  | connAck =>
    exact .inl ⟨_, rfl, by simp [ConnectLine.Carries, ConnectLine.stage],
      by simp [ConnectLine.stage], h.connAck⟩
  | sendAckFailed hne | republishFailed hne | establishedFailed hne => exact absurd hst' hne
  | rollbackClose | rollbackReturn | rollbackFall => simp [ConnectLine.stage] at hlt
  | token =>
    refine .inr (.inl ⟨rfl, rfl, h.own (.inl rfl) ho ?_ ?_ ?_⟩) <;> simp [ConnectLine.stage]
  | autoFlusherThrown =>
    refine .inr (.inr ⟨rfl, rfl, h.own (.inr rfl) ho ?_ ?_ ?_⟩) <;> simp [ConnectLine.stage]
  | _ =>
    refine .inl ⟨_, rfl, by simp [ConnectLine.Carries, ConnectLine.stage],
      by simp [ConnectLine.stage], h.own (.inl rfl) ho ?_ ?_ ?_⟩ <;> simp [ConnectLine.stage]

end Progress

/-- What a CONNECT that passed the checks leaves behind when it ends by the exception. -/
structure Abandoned (s : State) (x : ChannelId) (msg : MqttConnectMessage) (t : State) : Prop where

  state : t.descriptorState (s.descriptorOf x msg) ≠ some .established

  flusher : "autoFlusher" ∈ (s.channel x).pipeline.names

  registry : t.connectionDescriptors =
    s.connectionDescriptors.put msg.clientId (s.descriptorOf x msg)

  others : ∀ y, y ≠ x → (∀ p, s.previous msg = some p → p.channel ≠ y) →
    t.channel y = s.channel y

  sent : ∃ ws, (t.channel x).sent = (s.channel x).sent ++ ws ∧
    ((∃ w ∈ ws, w.packet.isAccepted = true) ↔ (s.channel x).isOpen = true ∧
      ∀ p, s.previous msg = some p → p.channel ≠ x)

/-- What it leaves behind when it gets to its end. -/
structure Completed (s : State) (x : ChannelId) (msg : MqttConnectMessage) (t : State) : Prop where

  state : t.descriptorState (s.descriptorOf x msg) = some .established

  flusher : "autoFlusher" ∉ (s.channel x).pipeline.names

/-- The states of a handler whose CONNECT has passed the checks. -/
def Running (s : State) (x : ChannelId) (msg : MqttConnectMessage) (u : State) : Prop :=
  (∃ l, u.frame (.loop x) = .connect msg (s.descriptorOf x msg) l ∧ l.Carries (s.previous msg) ∧
      Progress s x msg u l.stage) ∨
    u.frame (.loop x) = .close x ∧ Abandoned s x msg u ∨
    u.frame (.loop x) = .idle ∧ (Abandoned s x msg u ∨ Completed s x msg u)

theorem flusher_iff (hr : (gateway g).Reachable s) (hf : s.frame (.loop x) = .idle) :
    "autoFlusher" ∈ (s.channel x).pipeline.names ↔ (s.channel x).connects ≠ [] := by
  have := (reachable_lifecycle hr x).flusher
  rwa [hf, Channel.past_of_lt (by decide)] at this

theorem Running.step (hs : (gateway g).Reachable s) (hidle : s.frame (.loop x) = .idle)
    (hr : (gateway g).Reachable u) (h : Running s x msg u)
    (hn : next g u (.loop x) choice (u.frame (.loop x)) = some (i, f)) :
    Running s x msg ((u.exec (.loop x) i).setFrame (.loop x) f) := by
  have hl := reachable_lifecycle hr x
  rcases h with ⟨l, hf, hc, h⟩ | ⟨hf, h⟩ | ⟨hf, -⟩
  · obtain ⟨-, -, hst, -, -⟩ := hl.connecting _ _ _ hf
    have hst' : u.descriptorState (s.descriptorOf x msg) = some l.state := hst
    rw [hf] at hn
    rcases h.run hr hf hc hn with ⟨l', rfl, hc', -, h'⟩ | ⟨rfl, rfl, h'⟩ | ⟨rfl, rfl, h'⟩
    · exact .inl ⟨l', by simp, hc', h'⟩
    · refine .inr (.inr ⟨by simp, .inr ⟨?_, ?_⟩⟩)
      · cases hn
        rw [State.descriptorState, State.setFrame_channel, Channel.state?, State.exec_descriptors]
        exact hst'
      · rw [flusher_iff hs hidle, not_not]
        have := hl.late (by simp [hf, Frame.stage, ConnectLine.stage])
          (by simp [hf, Frame.stage, ConnectLine.stage])
        simpa [h.connects] using this
    · have herr : ∃ e, (u.channel x).pipeline.setupAutoFlusher = .error e ∧ i = .skip := by
        cases next_statement hn with
        | autoFlusherThrown he => exact ⟨_, he, rfl⟩
      obtain ⟨e, he, rfl⟩ := herr
      refine .inr (.inl ⟨by simp, ?_, ?_, ?_, h'.others, ?_⟩)
      · rw [show ((u.exec (.loop x) .skip).setFrame (.loop x) (.close x)).descriptorState
          (s.descriptorOf x msg) = u.descriptorState (s.descriptorOf x msg) from rfl, hst']
        simp [ConnectLine.state, ConnectLine.stage]
      · have := hl.flusher.mp (Pipeline.setupAutoFlusher_error he)
        rw [hf, Channel.past_of_le (by simp [Frame.stage, ConnectLine.stage]), h.connects,
          List.dropLast_concat] at this
        exact (flusher_iff hs hidle).mpr this
      · simpa using h'.registry
      · obtain ⟨ws, hws, ha⟩ := h'.sent
        exact ⟨ws, hws, ha.trans (by simp)⟩
  · rw [hf] at hn
    cases hn
    refine .inr (.inr ⟨by simp, .inl ⟨?_, h.flusher, h.registry, ?_, ?_⟩⟩)
    · rw [State.descriptorState, State.setFrame_channel, Channel.state?, State.exec_descriptors]
      exact h.state
    · intro y hy hp
      rw [State.setFrame_channel, State.exec, State.issue, State.update_channel_of_ne _ _ hy]
      exact h.others y hy hp
    · rw [State.setFrame_channel, State.exec_sent]
      exact h.sent
  · rw [hf] at hn
    cases hn

theorem Progress.start (hm : refusal g msg = none) :
    Progress s x msg (s.start x (fun c => c.receive g (.connect msg)) f) 0 := by
  constructor
  · rfl
  · intro y hy _
    rw [State.start_channel_of_ne _ _ _ hy]
  · simp [Channel.connects, Channel.receive, newDescriptors, hm]
  · simp [Channel.receive]
  · exact ⟨[], by simp [Channel.receive], by simp⟩

/-- The handler of a CONNECT that passes the checks runs to one of the two ends. -/
theorem handled_passed (hs : (gateway g).Reachable s) (hm : refusal g msg = none)
    (h : Handled g x s (.read x (.connect msg)) t) :
    Abandoned s x msg t ∨ Completed s x msg t := by
  obtain ⟨u, as, hu, hp, ht⟩ := h
  cases hu with
  | read hidle hlost =>
  have hstart : Step g s (.read x (.connect msg)) _ := .read hidle hlost
  have hrun : Running s x msg t ∧ (gateway g).Reachable t := by
    refine hp.invariant (P := fun u => Running s x msg u ∧ (gateway g).Reachable u)
      ⟨.inl ⟨.get, ?_, ?_, Progress.start hm⟩, hs.step (gateway_step.mpr hstart)⟩ ?_
    · simp [channelRead, processConnect, hm, State.descriptorOf]
    · simp [ConnectLine.Carries, ConnectLine.stage]
    · rintro a u v ⟨hu, hru⟩ ha hv
      obtain ⟨choice, rfl⟩ := Action.thread_eq_some.mp ha
      refine ⟨?_, hru.step hv⟩
      cases gateway_step.mp hv with
      | run hn => exact hu.step hs hidle hru hn
  rcases hrun.1 with ⟨l, hf, -⟩ | ⟨hf, -⟩ | ⟨-, h⟩
  · simp [hf] at ht
  · simp [hf] at ht
  · exact h

/-- The states of a handler that refuses the CONNECT. -/
structure Refusing (s : State) (x : ChannelId) (u : State) : Prop where

  frame : (∃ code, code ≠ .connectionAccepted ∧
      u.frame (.loop x) = .refuse x (connAck code false)) ∨
    u.frame (.loop x) = .close x ∨ u.frame (.loop x) = .idle

  registry : u.connectionDescriptors = s.connectionDescriptors

  others : ∀ y, y ≠ x → u.channel y = s.channel y

  sent : ∃ ws, (u.channel x).sent = (s.channel x).sent ++ ws ∧
    ∀ w ∈ ws, w.packet.isAccepted = false

theorem Refusing.step (h : Refusing s x u)
    (hn : next g u (.loop x) choice (u.frame (.loop x)) = some (i, f)) :
    Refusing s x ((u.exec (.loop x) i).setFrame (.loop x) f) := by
  obtain ⟨ws, hws, hw⟩ := h.sent
  rcases h.frame with ⟨code, hc, hf⟩ | hf | hf <;> rw [hf] at hn <;> cases hn
  · refine ⟨.inr (.inl (by simp)), h.registry, fun y hy => ?_, ?_⟩
    · rw [State.setFrame_channel, State.exec, State.issue, State.update_channel_of_ne _ _ hy]
      exact h.others y hy
    · rw [State.setFrame_channel, State.exec_sent]
      simp only [true_and]
      split_ifs
      · refine ⟨ws ++ [⟨_, .loop x, u.request (.loop x)⟩], by rw [hws, List.append_assoc], ?_⟩
        intro w hmem
        rcases List.mem_append.mp hmem with hmem | hmem
        · exact hw w hmem
        · cases List.mem_singleton.mp hmem
          exact Bool.eq_false_iff.mpr fun ha => hc (connAck_isAccepted.mp ha)
      · exact ⟨ws, hws, hw⟩
  · refine ⟨.inr (.inr (by simp)), h.registry, fun y hy => ?_, ?_⟩
    · rw [State.setFrame_channel, State.exec, State.issue, State.update_channel_of_ne _ _ hy]
      exact h.others y hy
    · rw [State.setFrame_channel, State.exec_sent]
      exact ⟨ws, hws, hw⟩

theorem handled_refused {code : MqttConnectReturnCode} (hm : refusal g msg = some code)
    (h : Handled g x s (.read x (.connect msg)) t) : Untouched x s t := by
  obtain ⟨u, as, hu, hp, -⟩ := h
  cases hu with
  | read hidle hlost =>
  have hrun : Refusing s x t := by
    refine hp.invariant (P := Refusing s x) ⟨.inl ⟨code, refusal_ne_accepted hm, ?_⟩, rfl, ?_,
      ⟨[], by simp [Channel.receive], by simp⟩⟩ ?_
    · simp [channelRead, processConnect, hm]
    · intro y hy
      rw [State.start_channel_of_ne _ _ _ hy]
    · rintro a u v hu ha hv
      obtain ⟨choice, rfl⟩ := Action.thread_eq_some.mp ha
      cases gateway_step.mp hv with
      | run hn => exact hu.step hn
  obtain ⟨ws, hws, hw⟩ := hrun.sent
  exact ⟨hrun.others, fun c e he _ => hrun.registry ▸ he, by simpa [hws] using hw⟩

def Frame.remaining : Frame → Option ℕ
  | .connect _ _ l => some (20 - l.stage)
  | .refuse _ _ => some 2
  | .close _ => some 1
  | .idle => some 0
  | _ => none

theorem next_remaining {n : ℕ} (hr : (gateway g).Reachable u)
    (hf : (u.frame (.loop x)).remaining = some (n + 1)) :
    ∃ i f m, next g u (.loop x) .proceed (u.frame (.loop x)) = some (i, f) ∧
      f.remaining = some m ∧ m ≤ n := by
  have hl := reachable_lifecycle hr x
  generalize hf₀ : u.frame (.loop x) = f₀ at *
  cases f₀ with
  | refuse y p => exact ⟨_, _, _, rfl, rfl, by simp [Frame.remaining] at hf; omega⟩
  | close y => exact ⟨_, _, _, rfl, rfl, Nat.zero_le n⟩
  | connect msg d l =>
    obtain ⟨-, -, hst, hlt, hd⟩ := hl.connecting _ _ _ rfl
    have hst' : u.descriptorState d = some l.state := by
      rw [State.descriptorState, hd]
      exact hst
    obtain ⟨i, f, hn⟩ : ∃ i f, next g u (.loop x) .proceed (.connect msg d l) = some (i, f) :=
      ⟨_, _, rfl⟩
    refine ⟨i, f, ?_⟩
    simp only [Frame.remaining, Option.some.injEq] at hf
    cases next_statement hn with
    | sendAckFailed hne | republishFailed hne | establishedFailed hne => exact absurd hst' hne
    | rollbackClose | rollbackReturn | rollbackFall => simp [ConnectLine.stage] at hlt
    | _ => exact ⟨_, hn, rfl, by simp only [ConnectLine.stage] at hf ⊢; omega⟩
  | _ => simp [Frame.remaining] at hf

/-- The handler of a CONNECT runs to its end. -/
theorem handler_ends (hr : (gateway g).Reachable u) {n : ℕ}
    (hf : (u.frame (.loop x)).remaining = some n) :
    ∃ as t, (gateway g).Path (fun _ b => b.thread = some (.loop x)) u as t ∧
      t.frame (.loop x) = .idle := by
  induction n using Nat.strong_induction_on generalizing u with
  | h n ih =>
    cases n with
    | zero =>
      refine ⟨[], u, .nil, ?_⟩
      generalize u.frame (.loop x) = f at hf
      cases f with
      | idle => rfl
      | connect msg d l => cases l <;> simp [Frame.remaining, ConnectLine.stage] at hf
      | _ => simp [Frame.remaining] at hf
    | succ n =>
      obtain ⟨i, f, m, hn, hm, hle⟩ := next_remaining hr hf
      have hs : (gateway g).step (.run (.loop x) .proceed) u = some _ :=
        gateway_step.mpr (.run hn)
      obtain ⟨as, t, hp, ht⟩ := ih m (by omega) (hr.step hs) (by simpa using hm)
      exact ⟨_, t, .cons rfl hs hp, ht⟩

/-- Exactly when a CONNECT fails without harm to others and without an acknowledgement: the
checks refuse it, it completes, or what it registered over was its own and closed. -/
def ConnectsSafely (g : Gateway) (s : State) (x : ChannelId) (msg : MqttConnectMessage) : Prop :=
  Passes g msg → "autoFlusher" ∈ (s.channel x).pipeline.names →
    (∃ p, s.previous msg = some p ∧ p.channel = x) ∨
      s.previous msg = none ∧ (s.channel x).isOpen = false

theorem Untouched.safe (h : Untouched x s t) (ha : Abandoned s x msg t) :
    ConnectsSafely g s x msg := by
  intro _ _
  obtain ⟨ws, hws, hacc⟩ := ha.sent
  cases hp : s.previous msg with
  | none =>
    refine .inr ⟨rfl, Bool.eq_false_iff.mpr fun ho => ?_⟩
    obtain ⟨w, hw, hwa⟩ := hacc.mpr ⟨ho, by simp [hp]⟩
    have := h.refused w (by simpa [hws] using hw)
    simp [this] at hwa
  | some p =>
    by_cases hx : p.channel = x
    · exact .inl ⟨p, rfl, hx⟩
    · have hput := h.entries msg.clientId p hp hx
      rw [ha.registry, Map.get_put_self] at hput
      exact absurd (congrArg Descriptor.channel (Option.some.inj hput)).symm hx

theorem Abandoned.untouched (h : Abandoned s x msg t)
    (hs : (∃ p, s.previous msg = some p ∧ p.channel = x) ∨
      s.previous msg = none ∧ (s.channel x).isOpen = false) : Untouched x s t := by
  obtain ⟨ws, hws, hacc⟩ := h.sent
  have own : ∀ p, s.previous msg = some p → p.channel = x := by
    rintro q hq
    rcases hs with ⟨p, hp, hx⟩ | ⟨hp, -⟩
    · exact Option.some.inj (hp.symm.trans hq) ▸ hx
    · simp [hp] at hq
  constructor
  · intro y hy
    exact h.others y hy fun p hp => own p hp ▸ hy.symm
  · intro c e he hx
    rw [h.registry, Map.get_put]
    split_ifs with hc
    · exact absurd (own e (by rw [State.previous, ← hc]; exact he)) hx
    · exact he
  · intro w hw
    rw [hws, List.drop_left] at hw
    refine Bool.eq_false_iff.mpr fun ha => ?_
    obtain ⟨ho, hx⟩ := hacc.mp ⟨w, hw, ha⟩
    rcases hs with ⟨p, hp, hpx⟩ | ⟨-, hc⟩
    · exact hx p hp hpx
    · simp [ho] at hc

/-- From every reachable state the handler of a CONNECT runs to its end, and if no other thread
takes a step in between it is atomic if and only if the CONNECT connects safely. -/
theorem failed_connect_atomic_iff (hs : (gateway g).Reachable s) :
    (s.frame (.loop x) = .idle → (s.channel x).lost = false →
      ∃ t, Handled g x s (.read x (.connect msg)) t) ∧
    ∀ t, Handled g x s (.read x (.connect msg)) t →
      (FailsAtomically x msg s t ↔ ConnectsSafely g s x msg) := by
  constructor
  · intro hidle hlost
    have hstart : Step g s (.read x (.connect msg)) _ := .read hidle hlost
    have hrem : ∃ n, (processConnect g x (s.channel x) msg).remaining = some n := by
      unfold processConnect
      split <;> exact ⟨_, rfl⟩
    obtain ⟨n, hn⟩ := hrem
    obtain ⟨as, t, hp, ht⟩ := handler_ends (x := x) (hs.step (gateway_step.mpr hstart))
      (by simpa [channelRead] using hn)
    exact ⟨t, _, as, hstart, hp, ht⟩
  · intro t h
    cases hm : refusal g msg with
    | some code =>
      refine iff_of_true (fun _ => handled_refused hm h) fun hp => ?_
      rw [refusal_eq_none.mpr hp] at hm
      cases hm
    | none =>
      rcases handled_passed hs hm h with h | h
      · exact ⟨fun hf => (hf h.state).safe h, fun hc _ =>
          h.untouched (hc (refusal_eq_none.mp hm) h.flusher)⟩
      · exact iff_of_true (fun hne => absurd h.state hne) fun _ hf => absurd hf h.flusher

/-- A client, and its second CONNECT on the same channel, which finds its own entry. -/
def ownConnect : List Action := join 0 "a" ++ [.read 0 (.connect (connectAs "a"))]

theorem failed_connect_atomic_ownConnect :
    (after (ownConnect ++ proceed 0 13)).descriptorState
        ((after (join 0 "a")).descriptorOf 0 (connectAs "a")) ≠ some .established ∧
      (FailsAtomically 0 (connectAs "a") (after (join 0 "a")) (after (ownConnect ++ proceed 0 13)) ↔
        ConnectsSafely ascii (after (join 0 "a")) 0 (connectAs "a")) :=
  ⟨by decide, (failed_connect_atomic_iff (reachable_after (by decide))).2 _
    ⟨after ownConnect, proceed 0 13, step_after (by decide) (by decide),
      path_after (by decide) (by decide), Frame.isIdle_iff.mp (by decide)⟩⟩

/-- Two clients, and the CONNECT that the first sends for the client id of the second. -/
def secondConnect : List Action :=
  join 0 "a" ++ join 1 "b" ++ [.read 0 (.connect (connectAs "b"))]

theorem second_connect_not_atomic : ∃ t,
    Handled ascii 0 (after (join 0 "a" ++ join 1 "b")) (.read 0 (.connect (connectAs "b"))) t ∧
      ¬FailsAtomically 0 (connectAs "b") (after (join 0 "a" ++ join 1 "b")) t := by
  refine ⟨after (secondConnect ++ proceed 0 13), ⟨after secondConnect, proceed 0 13,
    step_after (by decide) (by decide), path_after (by decide) (by decide),
    Frame.isIdle_iff.mp (by decide)⟩, fun h => ?_⟩
  have hu : Untouched 0 _ _ := h (by decide)
  have he := hu.entries "b" ⟨"b", 1, true, 0⟩ (by decide) (by decide)
  exact absurd he (by decide)

end ImProxy
