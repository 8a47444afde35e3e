import ImProxy.Gateway.Scenario
import ImProxy.Invariant.Bystander
import ImProxy.Transition.Region

/-! # What an event loop reads and changes

Apart from a broadcast, a handler reads and changes registry entries of the client ids it
knows, its own channel and its own frame. It appends to its own queue of tasks at every
other channel and reads nothing there.
-/

set_option autoImplicit false

namespace ImProxy

open Concurrent Transition

variable {g : Gateway} {s s' v : State} {t : Thread} {choice : Choice} {f f' : Frame} {i : Instr}
  {x y : ChannelId} {a : Action} {c : Channel} {d : Descriptor} {K : Set String}

/-! ## Locations -/

/-- The places where the state of the gateway is kept: an entry of the registry, the part of a
channel that its own event loop changes, the tasks that a thread has posted to a channel, and
the frame of a thread. -/
inductive Location
  | entry (clientID : String)
  | own (x : ChannelId)
  | queue (y : ChannelId) (t : Thread)
  | frame (t : Thread)

inductive Content
  | entry (descriptor : Option Descriptor)
  | own (c : Channel)
  | queue (tasks : List Task)
  | frame (f : Frame)

def Channel.own (c : Channel) : Channel := { c with tasks := fun _ => [] }

def State.read (s : State) : Location → Content
  | .entry c => .entry (s.connectionDescriptors.get c)
  | .own x => .own (s.channel x).own
  | .queue y t => .queue ((s.channel y).tasks t)
  | .frame t => .frame (s.frame t)

theorem Channel.eq_of_own {c c' : Channel} (h : c.own = c'.own) (ht : c.tasks = c'.tasks) :
    c = c' :=
  calc c = { c.own with tasks := c.tasks } := rfl
    _ = { c'.own with tasks := c'.tasks } := by rw [h, ht]

theorem State.eq_of_read (h : ∀ l, s.read l = s'.read l) : s = s' := by
  have hm : s.connectionDescriptors = s'.connectionDescriptors :=
    Map.ext fun c => Content.entry.inj (h (.entry c))
  have hc : s.channel = s'.channel := by
    funext x
    refine Channel.eq_of_own (Content.own.inj (h (.own x))) ?_
    funext t
    exact Content.queue.inj (h (.queue x t))
  have hf : s.frame = s'.frame := by
    funext t
    exact Content.frame.inj (h (.frame t))
  cases s
  cases s'
  simp_all

/-- The state of the gateway as a memory. -/
def memory : Memory State Location Content where
  read l s := s.read l
  ext := State.eq_of_read

/-- What the handlers of a channel read and change that know certain client ids. -/
def region (x : ChannelId) (K : Set String) : Set Location := {l | match l with
  | .entry c => c ∈ K
  | .own y => y = x
  | .queue _ t => t = .loop x
  | .frame t => t = .loop x}

theorem disjoint_region {K' : Set String} (hxy : x ≠ y) (hK : Disjoint K K') :
    Disjoint (region x K) (region y K') := by
  rw [Set.disjoint_left]
  intro l hx hy
  cases l with
  | entry c => exact Set.disjoint_left.mp hK hx hy
  | own z => exact hxy (hx.symm.trans hy)
  | queue z t => exact hxy (Thread.loop.inj (hx.symm.trans hy))
  | frame t => exact hxy (Thread.loop.inj (hx.symm.trans hy))

theorem agree_region : memory.Agree (region x K) s s' ↔
    (∀ c ∈ K, s.connectionDescriptors.get c = s'.connectionDescriptors.get c) ∧
      (s.channel x).own = (s'.channel x).own ∧
        (∀ y, (s.channel y).tasks (.loop x) = (s'.channel y).tasks (.loop x)) ∧
          s.frame (.loop x) = s'.frame (.loop x) := by
  constructor
  · intro h
    refine ⟨fun c hc => ?_, ?_, fun y => ?_, ?_⟩
    · exact Content.entry.inj (h (.entry c) hc)
    · exact Content.own.inj (h (.own x) rfl)
    · exact Content.queue.inj (h (.queue y (.loop x)) rfl)
    · exact Content.frame.inj (h (.frame (.loop x)) rfl)
  · rintro ⟨hm, ho, hq, hf⟩ l hl
    cases l with
    | entry c => exact congrArg Content.entry (hm c hl)
    | own y => cases hl; exact congrArg Content.own ho
    | queue y t => cases hl; exact congrArg Content.queue (hq y)
    | frame t => cases hl; exact congrArg Content.frame hf

/-! ## Operations confined to the region of a channel -/

theorem confined_setFrame : memory.Confined (region x K) (·.setFrame (.loop x) f) where
  frame s := by
    intro l hl
    cases l with
    | frame t => exact congrArg Content.frame (s.setFrame_frame_of_ne f hl).symm
    | _ => rfl
  congr {s s'} h := by
    obtain ⟨hm, ho, hq, -⟩ := agree_region.mp h
    exact agree_region.mpr ⟨hm, ho, hq, by simp⟩

theorem confined_update {k : State → Channel → Channel} (ht : ∀ s c, (k s c).tasks = c.tasks)
    (ho : ∀ s c, (k s c).own = (k s c.own).own)
    (hk : ∀ {s s'}, memory.Agree (region x K) s s' → k s = k s') :
    memory.Confined (region x K) fun s => s.update x (k s) where
  frame s := by
    intro l hl
    cases l with
    | own y => exact congrArg (fun c => Content.own c.own) (s.update_channel_of_ne _ hl).symm
    | queue y t =>
      refine congrArg Content.queue ?_
      rw [State.update_channel]
      split_ifs
      · rw [ht]
      · rfl
    | _ => rfl
  congr {s s'} h := by
    obtain ⟨hm, hc, hq, hf⟩ := agree_region.mp h
    refine agree_region.mpr ⟨hm, ?_, fun y => ?_, hf⟩
    · rw [State.update_channel_self, State.update_channel_self, ho, hc, hk h, ← ho]
    · simp only [State.update_channel]
      split_ifs
      · rw [ht, ht, hq]
      · exact hq y

theorem confined_post {k : State → Task} (hy : y ≠ x)
    (hk : ∀ {s s'}, memory.Agree (region x K) s s' → k s = k s') :
    memory.Confined (region x K) fun s => s.update y fun c => c.post (.loop x) (k s) where
  frame s := by
    intro l hl
    cases l with
    | own z =>
      refine congrArg Content.own ?_
      rw [State.update_channel]
      split_ifs <;> rfl
    | queue z t =>
      refine congrArg Content.queue ?_
      rw [State.update_channel]
      split_ifs
      · exact ((Channel.post_tasks ..).trans (if_neg hl)).symm
      · rfl
    | _ => rfl
  congr {s s'} h := by
    obtain ⟨hm, hc, hq, hf⟩ := agree_region.mp h
    refine agree_region.mpr ⟨hm, ?_, fun z => ?_, hf⟩
    · rw [State.update_channel_of_ne _ _ hy.symm, State.update_channel_of_ne _ _ hy.symm]
      exact hc
    · simp only [State.update_channel]
      split_ifs
      · simp only [Channel.post_tasks, if_true, hq, hk h]
      · exact hq z

theorem Channel.run_own (c : Channel) (k : Task) : (c.run k).own = (c.own.run k).own := by
  cases k with
  | close => rfl
  | write w =>
    have ho : c.own.isOpen = c.isOpen := rfl
    by_cases h : c.isOpen <;> simp [run, own, h]

theorem confined_issue {k : State → Task}
    (hk : ∀ {s s'}, memory.Agree (region x K) s s' → k s = k s') :
    memory.Confined (region x K) fun s => s.issue (.loop x) y (k s) := by
  by_cases hy : y = x
  · subst hy
    simp only [State.issue, if_true]
    exact confined_update (fun s c => Channel.run_tasks c (k s))
      (fun s c => Channel.run_own c (k s)) fun h => by rw [hk h]
  · have hne : Thread.loop x ≠ .loop y := fun h => hy (Thread.loop.inj h).symm
    simp only [State.issue, if_neg hne]
    exact confined_post hy hk

theorem confined_registry {ρ : Map String Descriptor → Map String Descriptor} {k : String}
    (hk : k ∈ K) (hne : ∀ m c, c ≠ k → (ρ m).get c = m.get c)
    (hρ : ∀ m m', m.get k = m'.get k → (ρ m).get k = (ρ m').get k) :
    memory.Confined (region x K)
      fun s => { s with connectionDescriptors := ρ s.connectionDescriptors } where
  frame s := by
    intro l hl
    cases l with
    | entry c =>
      have hc : c ≠ k := by
        rintro rfl
        exact hl hk
      exact congrArg Content.entry (hne _ c hc).symm
    | _ => rfl
  congr {s s'} h := by
    obtain ⟨hm, hc, hq, hf⟩ := agree_region.mp h
    refine agree_region.mpr ⟨fun c hc => ?_, hc, hq, hf⟩
    by_cases hck : c = k
    · exact hck ▸ hρ _ _ (hm k hk)
    · exact (hne _ c hck).trans ((hm c hc).trans (hne _ c hck).symm)

/-- What a task of a thread reads and changes. -/
def taskRegion (y : ChannelId) (t : Thread) : Set Location := {.own y, .queue y t, .frame (.loop y)}

theorem disjoint_region_task (hxy : x ≠ y) (ht : t ≠ .loop x) :
    Disjoint (region x K) (taskRegion y t) := by
  rw [Set.disjoint_left]
  rintro l hx (rfl | rfl | rfl)
  · exact hxy hx.symm
  · exact ht hx
  · exact hxy (Thread.loop.inj hx).symm

theorem disjoint_taskRegion {u : Thread} (hxy : x ≠ y) :
    Disjoint (taskRegion x t) (taskRegion y u) := by
  rw [Set.disjoint_left]
  rintro l hx (rfl | rfl | rfl)
  · rcases hx with h | h | h <;> cases h
    exact hxy rfl
  · rcases hx with h | h | h <;> cases h
    exact hxy rfl
  · rcases hx with h | h | h <;> cases h
    exact hxy rfl

theorem confined_task {k : Task} {ks : List Task} :
    memory.Confined (taskRegion y t) fun s => s.update y fun c =>
      { c.run k with tasks := Function.update c.tasks t ks } where
  frame s := by
    intro l hl
    cases l with
    | own z =>
      have hz : z ≠ y := fun h => hl (.inl (congrArg _ h))
      exact congrArg (fun c => Content.own c.own) (s.update_channel_of_ne _ hz).symm
    | queue z v =>
      refine congrArg Content.queue ?_
      rw [State.update_channel]
      split_ifs with hz
      · have hv : v ≠ t := fun h => hl (.inr (.inl (by rw [hz, h])))
        exact (Function.update_of_ne hv _ _).symm
      · rfl
    | _ => rfl
  congr {s s'} h := by
    have ho := Content.own.inj (h (.own y) (.inl rfl))
    rintro l (rfl | rfl | rfl)
    · refine congrArg Content.own ?_
      rw [State.update_channel_self, State.update_channel_self]
      have hr := Channel.run_own (s.channel y) k
      rw [ho, ← Channel.run_own] at hr
      exact hr
    · refine congrArg Content.queue ?_
      simp
    · exact h (.frame (.loop y)) (.inr (.inr rfl))

theorem local_task (h : Step g s (.task y t) s') :
    memory.Local (fun s s' => Step g s (.task y t) s') (taskRegion y t) s s' := by
  cases h with
  | task hf hk =>
    refine confined_task.local_of fun u hu => .task ?_ ?_
    · exact (Content.frame.inj (hu (.frame (.loop y)) (.inr (.inr rfl)))).symm.trans hf
    · exact (Content.queue.inj (hu (.queue y t) (.inr (.inl rfl)))).symm.trans hk

/-! ## Handlers that know their client ids -/

/-- A frame of a handler that uses the registry under some client ids only. -/
def Frame.Knows (K : Set String) : Frame → Prop
  | .connect _ d _ => d.clientID ∈ K
  | .disconnect _ (.get clientID) => clientID ∈ K
  | .disconnect _ (.abortOther existing) => existing.clientID ∈ K
  | .disconnect _ (.abort existing) => existing.clientID ∈ K
  | .disconnect _ (.remove existing) => existing.clientID ∈ K
  | .connectionLost _ clientID => clientID ∈ K
  | .pubAck _ _ _ _ => False
  | .push _ _ _ _ => False
  | .notifyAll _ => False
  | .closeWithMessage _ => False
  | .closeConnection _ => False
  | _ => True

def Instr.Knows (K : Set String) : Instr → Prop
  | .put d => d.clientID ∈ K
  | .remove d => d.clientID ∈ K
  | _ => True

theorem confined_exec (ho : i.Of (.loop x)) (hk : i.Knows K) :
    memory.Confined (region x K) (·.exec (.loop x) i) := by
  cases i with
  | skip => exact .id
  | put d =>
    refine confined_registry (ρ := fun m => m.put d.clientID d) hk
      (fun m c hc => m.get_put_of_ne hc) fun m m' _ => ?_
    rw [Map.get_put_self, Map.get_put_self]
  | remove d =>
    refine confined_registry (ρ := fun m => m.removeIf d.clientID d.equals) hk
      (fun m c hc => m.get_removeIf_of_ne hc) fun m m' h => ?_
    rw [Map.get_removeIf, Map.get_removeIf, h]
  | write y p =>
    refine confined_issue fun h => ?_
    have hc := congrArg Channel.received (agree_region.mp h).2.1
    exact congrArg (fun k : List Inbound => Task.write ⟨p, .loop x, k.length - 1⟩) hc
  | close y => exact confined_issue fun _ => rfl
  | attr y b =>
    cases Instr.attr_of.mp ho
    exact confined_update (k := fun _ c => { c with attributes := c.attributes.set b })
      (fun _ _ => rfl) (fun _ _ => rfl) fun _ => rfl
  | pipeline y p =>
    cases Instr.pipeline_of.mp ho
    exact confined_update (k := fun _ c => { c with pipeline := p }) (fun _ _ => rfl)
      (fun _ _ => rfl) fun _ => rfl
  | assignState d st =>
    cases (show d.channel = x from ho)
    exact confined_update (k := fun _ c => c.assign d.serial st) (fun _ _ => rfl)
      (fun _ _ => rfl) fun _ => rfl
  | closeLost y =>
    cases Instr.closeLost_of.mp ho
    exact confined_update (k := fun _ c => { c with isOpen := false, lossHandled := true })
      (fun _ _ => rfl) (fun _ _ => rfl) fun _ => rfl

/-- What such a handler does next depends on its region only. -/
theorem next_agree (ho : f.Of (.loop x)) (hf : f.Knows K)
    (h : memory.Agree (region x K) s s') :
    next g s' (.loop x) choice f = next g s (.loop x) choice f := by
  obtain ⟨hm, hc, -, -⟩ := agree_region.mp h
  cases f with
  | connect msg d l =>
    obtain ⟨rfl, -⟩ := ho
    have hp : (s.channel d.channel).pipeline = (s'.channel d.channel).pipeline :=
      (congrArg Channel.pipeline hc :)
    have hd : s.descriptorState d = s'.descriptorState d :=
      (congrArg (Channel.state? · d.serial) hc :)
    cases l <;> simp only [next, nextConnect, assignState, hp, hd, hm _ hf]
  | disconnect y l =>
    cases l with
    | get c => simp only [next, nextDisconnect, hm c hf]
    | _ => rfl
  | pubAck | push | notifyAll | closeWithMessage | closeConnection => exact hf.elim
  | _ => rfl

theorem next_knows (hm : ∀ c d, s.connectionDescriptors.get c = some d → d.clientID = c)
    (hf : f.Knows K) (h : next g s t choice f = some (i, f')) : i.Knows K ∧ f'.Knows K := by
  cases next_statement h with
  | @disconnectOwn _ c d hd _ | @disconnectOther _ c d hd _ =>
    have hc : c ∈ K := hf
    exact ⟨trivial, show d.clientID ∈ K from hm c d hd ▸ hc⟩
  | notConnected | isConnected | pubAckFound | pubAck | pushIterator | pushFetch | pushNext
  | pushEnd | filterThrown | filterOwn | filterOther | filterOff | pushApp | pushNoApp | pushImId
  | pushNoImId | push | notifyIterator | notifyFetch | notifyNext | notifyEnd | notifyAbort
  | messageNone | messageFound | messageWrite | messageAbort | closeNone | closeNow
  | closeGracefully | closeAbort | closeAssign | closeAssignFailed | closeClose | returned =>
    exact hf.elim
  | _ => constructor <;> trivial

def Instr.target : Instr → Option ChannelId
  | .write y _ => some y
  | .close y => some y
  | _ => none

theorem tasks_exec_of_target (hi : i.target ≠ some y) :
    ((s.exec t i).channel y).tasks = (s.channel y).tasks := by
  funext u
  rw [State.exec_tasks]
  cases i with
  | write z p | close z =>
    have hz : y ≠ z := fun h => hi (congrArg some h.symm)
    exact if_neg fun h => hz h.1
  | _ => rfl

/-- Where it writes to or closes another channel, it does so through a descriptor that it has
looked up under a client id it knows. -/
theorem next_target {P : Descriptor → Prop} (ho : f.Of (.loop x)) (hf : f.Knows K)
    (hr : f.Refs P) (h : next g s (.loop x) choice f = some (i, f')) (hi : i.target = some y)
    (hy : y ≠ x) : ∃ d, P d ∧ d.channel = y ∧ d.clientID ∈ K := by
  cases next_statement h with
  | reply | refuse | close =>
    cases hi
    exact absurd ho hy
  | connAck | rollbackClose =>
    cases hi
    exact absurd ho.1 hy
  | evictWrite | evictAbort =>
    cases hi
    exact ⟨_, hr.2.2, rfl, hr.1.symm ▸ hf⟩
  | abortOther =>
    cases hi
    exact ⟨_, hr, rfl, hf⟩
  | abort =>
    cases hi
    exact absurd ho.2 hy
  | pubAck | push | notifyAbort | messageWrite | messageAbort | closeAbort | closeClose =>
    exact hf.elim
  | _ => cases hi

theorem local_run (ho : (s.frame (.loop x)).Of (.loop x)) (hf : (s.frame (.loop x)).Knows K)
    (hn : next g s (.loop x) choice (s.frame (.loop x)) = some (i, f'))
    (hi : i.Knows K) :
    memory.Local (fun s s' => Step g s (.run (.loop x) choice) s') (region x K) s
      ((s.exec (.loop x) i).setFrame (.loop x) f') := by
  refine ((confined_exec (next_of ho hn).1 hi).comp confined_setFrame).local_of fun t ht => ?_
  refine .run ?_
  rw [← (agree_region.mp ht).2.2.2, next_agree ho hf ht]
  exact hn

theorem next_choice (hf : f.Knows K) (choice' : Choice) :
    next g s t choice' f = next g s t choice f := by
  cases f with
  | pubAck | push | notifyAll | closeWithMessage | closeConnection => exact hf.elim
  | _ => rfl

/-! ## Events confined to the region of a channel -/

theorem local_start {k : Channel → Channel} (ht : ∀ c, (k c).tasks = c.tasks)
    (ho : ∀ c, (k c).own = (k c.own).own)
    (h : ∀ t, memory.Agree (region x K) s t → Step g t a (t.start x k f)) :
    memory.Local (fun s s' => Step g s a s') (region x K) s (s.start x k f) :=
  ((confined_update (k := fun _ => k) (fun _ => ht) (fun _ => ho) fun _ => rfl).comp
    confined_setFrame).local_of h

theorem channelRead_own (c : Channel) (p : Inbound) :
    channelRead g x c.own p = channelRead g x c p := by cases p <;> rfl

theorem receive_own (c : Channel) (p : Inbound) :
    (c.receive g p).own = (c.own.receive g p).own := by cases p <;> rfl

theorem channelInactive_own (c : Channel) : channelInactive x c.own = channelInactive x c := rfl

/-- Every event of a channel is a step within its region. -/
theorem local_event (h : Step g s a s') (hx : a.actor = .loop x) (ha : ∀ y t, a ≠ .task y t)
    (hr : a.thread = none) :
    memory.Local (fun s s' => Step g s a s') (region x K) s s' := by
  have guards : ∀ {t}, memory.Agree (region x K) s t →
      t.frame (.loop x) = s.frame (.loop x) ∧ (t.channel x).own = (s.channel x).own :=
    fun ht => ⟨(agree_region.mp ht).2.2.2.symm, (agree_region.mp ht).2.1.symm⟩
  cases h with
  | @read z p hf hl =>
    cases hx
    refine local_start (k := fun c => c.receive g p) (fun _ => rfl) (receive_own · p) fun t ht => ?_
    obtain ⟨hft, hct⟩ := guards ht
    have hch : channelRead g x (t.channel x) p = channelRead g x (s.channel x) p := by
      rw [← channelRead_own, hct, channelRead_own]
    rw [← hch]
    exact .read (hft.trans hf) ((congrArg Channel.lost hct :).trans hl)
  | @inactive z hf hd =>
    cases hx
    refine local_start (fun _ => rfl) (fun _ => rfl) fun t ht => ?_
    obtain ⟨hft, hct⟩ := guards ht
    rw [← channelInactive_own, ← hct, channelInactive_own]
    exact .inactive (hft.trans hf) ((congrArg Channel.deregistered hct :).trans hd)
  | @readerIdle z hf ho hi =>
    cases hx
    refine local_start (k := fun c => { c with lost := true }) (fun _ => rfl) (fun _ => rfl)
      fun t ht => ?_
    obtain ⟨hft, hct⟩ := guards ht
    have hp : (t.channel x).pipeline = (s.channel x).pipeline := (congrArg Channel.pipeline hct :)
    rw [← channelInactive_own, ← hct, channelInactive_own]
    exact .readerIdle (hft.trans hf) ((congrArg Channel.isOpen hct :).trans ho) (hp ▸ hi)
  | @exceptionCaught z hf =>
    cases hx
    exact confined_setFrame.local_of fun t ht => .exceptionCaught ((guards ht).1.trans hf)
  | @peerClose z hf =>
    cases hx
    exact (confined_update (k := fun _ c => { c with isOpen := false }) (fun _ _ => rfl)
      (fun _ _ => rfl) fun _ => rfl).local_of fun t ht => .peerClose ((guards ht).1.trans hf)
  | call hf => cases hx
  | task _ _ => exact absurd rfl (ha _ _)
  | run hn => cases hr

end ImProxy
