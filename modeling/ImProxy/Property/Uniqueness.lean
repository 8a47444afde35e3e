import ImProxy.Invariant.Bystander
import ImProxy.Invariant.Entry
import ImProxy.Invariant.History

/-! # One connection for each client id

A takeover looks the previous descriptor up, puts its own and closes what it found.
An entry that another CONNECT has put between the two is overwritten without being
closed. On runs where the put replaces a descriptor equal to what the lookup found, or
nothing, every open channel that lost its entry is about to be closed.
-/

set_option autoImplicit false

namespace ImProxy

open Concurrent Transition

variable {g : Gateway} {s s' : State} {t : Thread} {choice : Choice} {f : Frame} {i : Instr}
  {x y : ChannelId} {a : Action} {c : String} {d e : Descriptor}

/-- No handler is in the middle of a run, and no write or close is pending. -/
def Quiescent (s : State) : Prop :=
  (∀ t, s.frame t = .idle) ∧ ∀ y t, (s.channel y).tasks t = []

/-- An open channel on which a CONNECT for a client id was acknowledged. -/
def Connected (s : State) (x : ChannelId) (c : String) : Prop :=
  (s.channel x).isOpen = true ∧ ∃ w ∈ (s.channel x).sent, w.packet.isAccepted = true ∧
    ∃ msg, (s.channel x).received[w.request]? = some (.connect msg) ∧ msg.clientId = c

/-- Each client id has at most one connection, and the registry holds its descriptor. -/
def OneConnection (s : State) : Prop :=
  ∀ c x, Connected s x c → (∀ y, Connected s y c → y = x) ∧
    ∃ d, s.connectionDescriptors.get c = some d ∧ d.channel = x ∧ Published s d

/-- The client id for which a step puts a descriptor, and what the CONNECT has found under it. -/
def State.putsOver (s : State) (a : Action) : Option (String × Option Descriptor) :=
  match s.executes a with
  | .connect _ d (.put previous) => some (d.clientID, previous)
  | _ => none

/-- A put replaces a descriptor that equals the one the CONNECT has found, or nothing. -/
def NoLostUpdate : Condition State Action := fun s a =>
  ∀ r ∈ s.putsOver a, ∀ e ∈ s.connectionDescriptors.get r.1, r.2.any (·.equals e) = true

instance (s : State) : DecidablePred (NoLostUpdate s) := fun a =>
  inferInstanceAs (Decidable (∀ r ∈ s.putsOver a, _))

/-! ## Closing -/

/-- The channel that a handler in this frame closes with certainty. -/
def Frame.closes : Frame → Option ChannelId
  | .connect _ _ (.evictWrite p) => some p.channel
  | .connect _ _ (.evictAbort p) => some p.channel
  | .inactiveClose x => some x
  | _ => none

/-- A channel is about to be closed: the close is pending, or a handler is on the way to it. -/
def Closing (s : State) (y : ChannelId) : Prop :=
  (∃ t, Task.close ∈ (s.channel y).tasks t) ∨ ∃ t, (s.frame t).closes = some y

theorem abort_closing : (((s.exec t (.close y)).setFrame t f).channel y).isOpen = false ∨
    Closing ((s.exec t (.close y)).setFrame t f) y := by
  by_cases ht : t = .loop y
  · exact .inl (by rw [State.setFrame_channel, State.exec_isOpen]; simp [ht])
  · refine .inr (.inl ⟨t, ?_⟩)
    rw [State.setFrame_channel, State.exec_tasks]
    simp [ht]

/-- What is about to be closed stays so until it is closed. -/
theorem Closing.step (hs : Closing s y) (h : Step g s a s') :
    (s'.channel y).isOpen = false ∨ Closing s' y := by
  rcases hs with ⟨t, hk⟩ | ⟨t, hf⟩
  · rcases channel_tasks_step h hk with hk | ⟨-, hc⟩
    · exact .inr (.inl ⟨t, hk⟩)
    · rw [hc]
      exact .inl rfl
  · have hbusy : s.frame t ≠ .idle := by
      intro hi
      simp [hi, Frame.closes] at hf
    rcases busy_frame hbusy h with ⟨choice, rfl⟩ | hf'
    · cases h with
      | @run _ _ i f hn =>
        generalize s.frame t = f₀ at hf hn
        cases next_statement hn with
        | evictWrite => exact .inr (.inr ⟨t, by rw [State.setFrame_frame_self]; exact hf⟩)
        | evictAbort =>
          cases hf
          exact abort_closing
        | inactiveClose =>
          cases hf
          exact .inl (by simp [State.exec])
        | _ => cases hf
    · exact .inr (.inr ⟨t, hf' ▸ hf⟩)

/-! ## Entries -/

/-- A DISCONNECT removes the entry of its channel after it has closed it. -/
def Frame.Removes (c : Channel) : Frame → Prop
  | .disconnect _ (.remove _) => c.isOpen = false
  | _ => True

theorem Frame.Begins.removes {k : Channel} (h : f.Begins x) : f.Removes k := by
  cases h <;> trivial

theorem Frame.Loses.removes {k : Channel} (h : f.Loses x) : f.Removes k := by
  cases h <;> trivial

theorem removes_local_invariant :
    LocalInvariant g System.always x fun c f => f.Removes c where
  tasks {c f} _ h := by
    cases f with
    | disconnect y l => cases l <;> exact h
    | _ => trivial
  init := trivial
  read q _ _ _ _ := (channelRead_begins ..).removes
  lose _ := (channelInactive_loses ..).removes
  readerIdle _ _ := (channelInactive_loses ..).removes
  exceptionCaught _ := trivial
  peerClose _ := trivial
  task _ _ _ _ _ _ _ := trivial
  run {s choice i f} _ _ hf hn _ := by
    generalize s.frame (.loop x) = f₀ at hf hn
    cases next_statement hn with
    | abort =>
      obtain ⟨-, hd⟩ := hf
      simp [Frame.Removes, State.exec_isOpen, show _ = x from hd]
    | filterThrown => trivial
    | _ => trivial

/-- An event loop removes an entry of its channel when the channel is closed, or closes it
next. -/
theorem remove_closes (hr : (gateway g).Reachable s)
    (hn : next g s (.loop x) choice (s.frame (.loop x)) = some (.remove e, f))
    (hopen : (s.channel x).isOpen = true) : f = .inactiveClose x := by
  have hl := reachable_lifecycle hr x
  have hrem := removes_local_invariant.reachable (x := x) hr
  have ho := reachable_owned hr (.loop x)
  generalize s.frame (.loop x) = f₀ at hn hl hrem ho
  cases next_statement hn with
  | rollbackReturn | rollbackFall =>
    obtain ⟨-, -, -, hlt, -⟩ := hl.connecting _ _ _ rfl
    simp [ConnectLine.stage] at hlt
  | remove => simp [Frame.Removes, hopen] at hrem
  | connectionLost => rw [show _ = x from ho]

/-- An open channel keeps an entry under the client id of each of its descriptors, unless it is
about to be closed. -/
def Kept (s : State) : Prop :=
  ∀ d, Published s d → (s.channel d.channel).isOpen = true →
    (∃ e, s.connectionDescriptors.get d.clientID = some e ∧ e.channel = d.channel) ∨
      Closing s d.channel

/-- The put of a CONNECT for the client id of an entry evicts the channel of the entry. -/
theorem put_closes (hc : NoLostUpdate s a) (h : Step g s a s') (hp : s.puts a = some e)
    (hd : s.connectionDescriptors.get e.clientID = some d) : Closing s' d.channel := by
  cases h with
  | @run t choice i f hn =>
    simp only [State.puts, NoLostUpdate, State.putsOver, State.executes] at hp hc
    refine .inr ⟨t, ?_⟩
    rw [State.setFrame_frame_self]
    generalize s.frame t = f₀ at hp hc hn
    cases next_statement hn with
    | putNew =>
      cases hp
      cases hc _ rfl _ hd
    | putOver =>
      cases hp
      have he := hc _ rfl _ hd
      simp only [Option.any_some, Descriptor.equals, Bool.and_eq_true, beq_iff_eq] at he
      exact congrArg some he.2
    | _ => cases hp
  | _ => cases hp

theorem puts_get (h : Step g s a s') (hp : s.puts a = some d) :
    s'.connectionDescriptors.get d.clientID = some d := by
  cases h with
  | @run t choice i f hn =>
    simp only [State.puts, State.executes] at hp
    generalize s.frame t = f₀ at hp hn
    cases next_statement hn with
    | putNew | putOver => cases hp; exact Map.get_put_self _
    | _ => cases hp
  | _ => cases hp

theorem removes_of_get_none (h : s.connectionDescriptors.get c = some d)
    (h' : (s.exec t i).connectionDescriptors.get c = none) : ∃ e, i = .remove e := by
  rw [State.exec_connectionDescriptors] at h'
  cases i with
  | remove e => exact ⟨e, rfl⟩
  | put e =>
    simp only [Map.get_put] at h'
    split_ifs at h'
    simp [h] at h'
  | _ => simp [h] at h'

theorem Kept.step (hr : (gateway g).Reachable s) (hs : Kept s) (hc : NoLostUpdate s a)
    (h : Step g s a s') : Kept s' := by
  intro d hd hopen'
  have hopen := isOpen_of_step h hopen'
  rcases published_new hr h hd with hd | hp
  · rcases hs d hd hopen with ⟨e, he, hch⟩ | hcl
    · rcases entry_step hr h he with he' | ⟨hnone, ha⟩ | ⟨e', he', -, hp, hid⟩
      · exact .inl ⟨e, he', hch⟩
      · -- the entry was removed by the event loop of the channel
        rw [hch] at ha
        obtain ⟨choice, rfl⟩ := Action.thread_eq_some.mp ha
        cases h with
        | run hn =>
          obtain ⟨r, rfl⟩ := removes_of_get_none he hnone
          refine .inr (.inr ⟨.loop d.channel, ?_⟩)
          rw [State.setFrame_frame_self, remove_closes hr hn hopen]
          rfl
      · by_cases hch' : e'.channel = d.channel
        · exact .inl ⟨e', he', hch'⟩
        · exact .inr (hch ▸ put_closes hc h hp (hid.symm ▸ he))
    · exact .inr ((hcl.step h).resolve_left (by simp [hopen']))
  · exact .inl ⟨d, puts_get h hp, rfl⟩

theorem reachable_kept (h : (gateway g).ReachableWhere NoLostUpdate s) : Kept s :=
  h.invariant (by
    rintro d ⟨msg, hm, -⟩
    simp [State.published, State.init, Channel.init, Channel.past, Channel.connects] at hm)
    fun _ _ _ hr hs hc ht => hs.step hr.reachable hc (gateway_step.mp ht)

/-! ## The property -/

theorem Kept.entry (hr : (gateway g).Reachable s) (hs : Kept s) (hq : Quiescent s)
    (hx : Connected s x c) :
    ∃ d, s.connectionDescriptors.get c = some d ∧ d.channel = x ∧ Published s d := by
  obtain ⟨hopen, w, hw, ha, msg, hm, rfl⟩ := hx
  have hl := reachable_lifecycle hr x
  obtain ⟨-, m, hm', hmem⟩ :=
    (reachable_history hr x).connAck w hw (isConnAck_of_isAccepted ha)
  cases hm.symm.trans hm'
  obtain ⟨k, hk⟩ := List.mem_iff_getElem?.mp (hmem ha)
  have hd : Published s (newDescriptor msg x k) := by
    refine ⟨msg, ?_, rfl⟩
    rw [State.published, Channel.past_of_lt (by simp [hq.1, Frame.stage])]
    exact hk
  rcases hs _ hd hopen with ⟨e, he, hch⟩ | ⟨t, ht⟩ | ⟨t, ht⟩
  · exact ⟨e, he, hch, ((reachable_registry hr).entries _ e he).2⟩
  · simp [hq.2] at ht
  · simp [hq.1, Frame.closes] at ht

/-- On runs without a lost update each client id has at most one connection whenever the gateway
is quiescent, and the registry holds its descriptor. -/
theorem one_connection (h : (gateway g).ReachableWhere NoLostUpdate s) (hq : Quiescent s) :
    OneConnection s := by
  intro c x hx
  have hr := h.reachable
  have hs := reachable_kept h
  obtain ⟨d, hd, hdx, hpub⟩ := hs.entry hr hq hx
  refine ⟨fun y hy => ?_, d, hd, hdx, hpub⟩
  obtain ⟨e, he, hey, -⟩ := hs.entry hr hq hy
  rw [← hey, ← hdx, Option.some.inj (he.symm.trans hd)]

/-! ## Quiescent runs -/

/-- A run of some event loops ends in a quiescent state if these are idle and have posted
nothing to each other. -/
theorem quiescent_run {as : List Action} (xs : List ChannelId)
    (h : (gateway g).run as (.init g) = some s) (ha : ∀ a ∈ as, a.actor ∈ xs.map Thread.loop)
    (hf : ∀ t ∈ xs.map Thread.loop, (s.frame t).isIdle = true)
    (hk : ∀ y ∈ xs, ∀ t ∈ xs.map Thread.loop, (s.channel y).tasks t = []) : Quiescent s := by
  have away : ∀ t, t ∉ xs.map Thread.loop → Bystander s t := fun t ht =>
    bystander_run h fun a has hat => ht (hat ▸ ha a has)
  have hr : (gateway g).Reachable s := ⟨as, System.path_iff_run.mpr h⟩
  refine ⟨fun t => ?_, fun y t => ?_⟩
  · by_cases ht : t ∈ xs.map Thread.loop
    · exact Frame.isIdle_iff.mp (hf t ht)
    · exact (away t ht).frame
  · by_cases ht : t ∈ xs.map Thread.loop
    · by_cases hy : y ∈ xs
      · exact hk y hy t ht
      · -- a channel that has received nothing has no descriptor to be posted to
        by_contra hne
        obtain ⟨d, hd, rfl⟩ := (reachable_registry hr).posted y t hne
        have hrec := (away (.loop d.channel) (by simpa using hy)).received _ rfl
        have hlen := (reachable_history hr d.channel).connects
        rw [hrec] at hlen
        exact hd.connects_ne_nil (List.length_eq_zero_iff.mp (by simpa using hlen))
    · exact (away t ht).tasks y

def takeOverCompleted : List Action :=
  join 0 "a" ++ takeOver 1 "a" ++ [.task 0 (.loop 1), .task 0 (.loop 1)]

theorem one_connection_takeOver : OneConnection (after takeOverCompleted) :=
  one_connection (reachableWhere_after (by decide))
    (quiescent_run [0, 1] (run_after (by decide)) (by decide) (by decide) (by decide))

/-- The CONNECTs of channels 0 and 1 for one client id look the registry up before either puts
its descriptor. -/
def racingConnects : List Action :=
  [.read 0 (.connect (connectAs "a")), .read 1 (.connect (connectAs "a"))] ++ proceed 0 1 ++
    proceed 1 1 ++ proceed 0 13 ++ proceed 1 13

theorem racing_connects_both_live : ∃ s,
    (gateway ascii).run racingConnects (.init ascii) = some s ∧ Quiescent s ∧
      ¬OneConnection s := by
  refine ⟨after racingConnects, run_after (by decide),
    quiescent_run [0, 1] (run_after (by decide)) (by decide) (by decide) (by decide), fun h => ?_⟩
  have connected : ∀ x ∈ [0, 1], Connected (after racingConnects) x "a" := by
    intro x hx
    exact ⟨by revert x; decide, ⟨connAck .connectionAccepted false, .loop x, 0⟩,
      by revert x; decide, rfl, connectAs "a", by revert x; decide, rfl⟩
  have h₀ := connected 0 (by simp)
  have h₁ := connected 1 (by simp)
  exact absurd ((h "a" 0 h₀).1 1 h₁) (by decide)

end ImProxy
