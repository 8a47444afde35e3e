import ImProxy.Invariant.Ownership

/-! # Invariants of one channel

No other thread changes a channel except by posting tasks to it. An invariant
that relates a channel to the frame of its event loop is therefore proved from
what that loop does alone.
-/

set_option autoImplicit false

namespace ImProxy

open Concurrent Transition

variable {g : Gateway} {s s' : State} {t u : Thread} {choice : Choice} {f f' : Frame} {i : Instr}
  {x y : ChannelId} {a : Action} {d : Descriptor} {st : ConnectionState}

/-- The state of a descriptor changes along `processConnect`, or in the graceful
`ConnectionDescriptor.close` from a state of its own. -/
theorem next_assignState (h : next g s t choice f = some (.assignState d st, f')) :
    (∃ msg l, f = .connect msg d l ∧ f' ≠ .idle ∧
      (st = .sendAck ∨ st = .messagesRepublished ∨ st = .established)) ∨
      s.descriptorState d = some .interceptorsNotified ∧ st = .disconnected := by
  cases next_statement h with
  | sendAck _ => exact .inl ⟨_, _, rfl, by simp, .inl rfl⟩
  | republish _ => exact .inl ⟨_, _, rfl, by simp, .inr (.inl rfl)⟩
  | established _ => exact .inl ⟨_, _, rfl, by simp, .inr (.inr rfl)⟩
  | closeAssign hd => exact .inr ⟨hd, rfl⟩

/-- No code path enters the state that the graceful close starts from. -/
def NeverNotified (s : State) : Prop :=
  ∀ x, ∀ e ∈ (s.channel x).descriptors, e.state ≠ .interceptorsNotified

theorem mem_modify_state {l : List DescriptorCell} {n : ℕ} {st : ConnectionState}
    {e : DescriptorCell} (h : e ∈ l.modify n fun e => { e with state := st }) :
    e ∈ l ∨ e.state = st := by
  obtain ⟨k, hk⟩ := List.mem_iff_getElem?.mp h
  rw [List.getElem?_modify] at hk
  obtain ⟨e', he, rfl⟩ := Option.map_eq_some_iff.mp hk
  split_ifs
  · exact .inr rfl
  · exact .inl (List.mem_of_getElem? he)

theorem NeverNotified.step (hs : NeverNotified s) (h : Step g s a s') : NeverNotified s' := by
  intro x e he
  have hc := h.onChannel x
  generalize s'.channel x = c at hc he
  cases hc with
  | still _ | event _ _ => exact hs x e he
  | @read p _ =>
    simp only [Channel.receive] at he
    cases p with
    | connect msg =>
      simp only [newDescriptors] at he
      split at he
      · exact hs x e he
      · rcases List.mem_append.mp he with he | he
        · exact hs x e he
        · cases List.mem_singleton.mp he
          simp
    | _ => exact hs x e he
  | task _ _ => exact hs x e (by simpa using he)
  | @run t choice i f hn =>
    rw [State.exec_descriptors] at he
    cases i <;> try exact hs x e he
    next d st =>
    simp only at he
    split_ifs at he
    · rcases mem_modify_state he with he | rfl
      · exact hs x e he
      · rcases next_assignState hn with ⟨_, _, _, _, h | h | h⟩ | ⟨_, h⟩ <;> simp [h]
    · exact hs x e he

theorem reachable_neverNotified (h : (gateway g).Reachable s) : NeverNotified s :=
  h.invariant (fun x e he => by simp [State.init, Channel.init] at he)
    fun _ _ _ _ hs ht => hs.step (gateway_step.mp ht)

theorem exec_foreign (hn : NeverNotified s) (hf : f.Of t) (ht : t ≠ .loop x)
    (h : next g s t choice f = some (i, f')) :
    ∃ ts, (s.exec t i).channel x = { s.channel x with tasks := ts } := by
  have hi := (next_of hf h).1
  have other : ∀ y k, ∃ ts, (s.issue t y k).channel x = { s.channel x with tasks := ts } := by
    intro y k
    simp only [State.issue, State.update_channel]
    split_ifs with hy hty
    · exact absurd (hy ▸ hty) ht
    · exact ⟨_, rfl⟩
    · exact ⟨_, rfl⟩
  have own : ∀ y k, t = .loop y →
      ∃ ts, (s.update y k).channel x = { s.channel x with tasks := ts } := by
    rintro y k rfl
    exact ⟨_, s.update_channel_of_ne k fun he => ht (congrArg Thread.loop he.symm)⟩
  cases i with
  | skip | put d | remove d => exact ⟨_, rfl⟩
  | write y p => exact other y _
  | close y => exact other y _
  | attr y b => simp only [State.exec]; exact own y _ (by simpa using hi)
  | pipeline y p => simp only [State.exec]; exact own y _ (by simpa using hi)
  | closeLost y => simp only [State.exec]; exact own y _ (by simpa using hi)
  | assignState d st =>
    rcases next_assignState h with ⟨msg, l, rfl, _⟩ | ⟨hd, _⟩
    · cases t with
      | loop y => simp only [State.exec]; exact own _ _ (congrArg Thread.loop (Eq.symm hi))
      | server n => exact hf.elim
    · obtain ⟨e, he, hst⟩ := Option.map_eq_some_iff.mp hd
      exact absurd hst (hn _ e (List.mem_of_getElem? he))

/-- What a step can do to a channel and the frame of its event loop, by the steps that do it. -/
inductive LoopStep (g : Gateway) (s : State) (x : ChannelId) : Action → Channel → Frame → Prop

  /-- A step of another thread, which may post tasks. -/
  | foreign {a : Action} {ts : Thread → List Task} : (∀ choice, a ≠ .run (.loop x) choice) →
      LoopStep g s x a { s.channel x with tasks := ts } (s.frame (.loop x))

  | read {p : Inbound} : s.frame (.loop x) = .idle → (s.channel x).lost = false →
      LoopStep g s x (.read x p) ((s.channel x).receive g p) (channelRead g x (s.channel x) p)

  | inactive : s.frame (.loop x) = .idle →
      LoopStep g s x (.inactive x) (s.channel x).lose (channelInactive x (s.channel x))

  | readerIdle : s.frame (.loop x) = .idle → (s.channel x).isOpen = true →
      LoopStep g s x (.readerIdle x) { s.channel x with lost := true }
        (channelInactive x (s.channel x))

  | exceptionCaught : s.frame (.loop x) = .idle →
      LoopStep g s x (.exceptionCaught x) (s.channel x) (.close x)

  | peerClose : s.frame (.loop x) = .idle →
      LoopStep g s x (.peerClose x) { s.channel x with isOpen := false } .idle

  | task {t : Thread} {k : Task} {ks : List Task} : s.frame (.loop x) = .idle →
      (s.channel x).tasks t = k :: ks →
      LoopStep g s x (.task x t)
        { (s.channel x).run k with tasks := Function.update (s.channel x).tasks t ks } .idle

  | run {choice : Choice} {i : Instr} {f : Frame} :
      next g s (.loop x) choice (s.frame (.loop x)) = some (i, f) →
      LoopStep g s x (.run (.loop x) choice) ((s.exec (.loop x) i).channel x) f

theorem Step.onLoop (hn : NeverNotified s) (ho : Owned s) (h : Step g s a s') (x : ChannelId) :
    LoopStep g s x a (s'.channel x) (s'.frame (.loop x)) := by
  have start : ∀ y k l, (∀ choice, a ≠ .run (.loop x) choice) →
      (x = y → LoopStep g s x a (k (s.channel x)) l) →
      LoopStep g s x a ((s.start y k l).channel x) ((s.start y k l).frame (.loop x)) := by
    intro y k l ha hy
    rw [State.start_channel, State.start_frame_loop]
    split_ifs with hx
    · exact hy hx
    · exact .foreign ha
  have update : ∀ y k, (∀ choice, a ≠ .run (.loop x) choice) →
      (x = y → LoopStep g s x a (k (s.channel x)) (s.frame (.loop x))) →
      LoopStep g s x a ((s.update y k).channel x) ((s.update y k).frame (.loop x)) := by
    intro y k ha hy
    rw [State.update_channel, State.update_frame]
    split_ifs with hx
    · exact hy hx
    · exact .foreign ha
  cases h with
  | @read y p hf hl =>
    refine start y (fun c => c.receive g p) _ nofun ?_
    rintro rfl
    exact .read hf hl
  | inactive hf _ =>
    refine start _ Channel.lose _ nofun ?_
    rintro rfl
    exact .inactive hf
  | readerIdle hf hopen _ =>
    refine start _ (fun c => { c with lost := true }) _ nofun ?_
    rintro rfl
    exact .readerIdle hf hopen
  | @exceptionCaught y hf =>
    rw [State.setFrame_channel, State.setFrame_frame]
    split_ifs with hx
    · cases hx
      exact .exceptionCaught hf
    · exact .foreign nofun
  | peerClose hf =>
    refine update _ (fun c => { c with isOpen := false }) nofun ?_
    rintro rfl
    rw [hf]
    exact .peerClose hf
  | call _ =>
    rw [State.setFrame_channel, State.setFrame_frame, if_neg nofun]
    exact .foreign nofun
  | task hf hk =>
    refine update _ _ nofun ?_
    rintro rfl
    rw [hf]
    exact .task hf hk
  | @run t choice i f h =>
    by_cases ht : t = .loop x
    · subst ht
      rw [State.setFrame_channel, State.setFrame_frame_self]
      exact .run h
    · obtain ⟨ts, hts⟩ := exec_foreign hn (ho t) ht h
      rw [State.setFrame_channel, State.setFrame_frame_of_ne _ _ (Ne.symm ht), State.exec_frame,
        hts]
      exact .foreign fun choice he => ht (Action.run.inj he).1

/-- Within a handler only the thread's own statements change its frame. -/
theorem busy_frame (hf : s.frame t ≠ .idle) (h : Step g s a s') :
    (∃ choice, a = .run t choice) ∨ s'.frame t = s.frame t := by
  have other : ∀ u, s.frame u = .idle → t ≠ u := by
    rintro u hu rfl
    exact hf hu
  cases h with
  | read hy _ | inactive hy _ | readerIdle hy _ _ | exceptionCaught hy | call hy =>
    exact .inr (State.setFrame_frame_of_ne _ _ (other _ hy))
  | peerClose _ | task _ _ => exact .inr rfl
  | @run u choice i f hs =>
    by_cases ht : u = t
    · exact .inl ⟨choice, ht ▸ rfl⟩
    · exact .inr (by rw [State.setFrame_frame_of_ne _ _ (Ne.symm ht), State.exec_frame])

/-- Within a handler only the event loop's own statements change its channel. -/
theorem busy_step (hn : NeverNotified s) (ho : Owned s) (hf : s.frame (.loop x) ≠ .idle)
    (h : Step g s a s') : (∃ choice, a = .run (.loop x) choice) ∨
      s'.frame (.loop x) = s.frame (.loop x) ∧
        ∃ ts, s'.channel x = { s.channel x with tasks := ts } := by
  have hx := h.onLoop hn ho x
  generalize s'.channel x = c, s'.frame (.loop x) = f at hx ⊢
  cases hx with
  | foreign _ => exact .inr ⟨rfl, _, rfl⟩
  | run _ => exact .inl ⟨_, rfl⟩
  | read hi _ | inactive hi | readerIdle hi _ | exceptionCaught hi | peerClose hi | task hi _ =>
    exact absurd hi hf

/-- A property of a channel and its event loop's frame that this loop alone preserves, on runs
whose steps meet a condition. -/
structure LocalInvariant (g : Gateway) (C : Condition State Action) (x : ChannelId)
    (P : Channel → Frame → Prop) : Prop where

  tasks : ∀ {c f} ts, P c f → P { c with tasks := ts } f

  init : P (.init (g.transport x)) .idle

  read : ∀ {s} p, (gateway g).ReachableWhere C s → s.frame (.loop x) = .idle →
    (s.channel x).lost = false → P (s.channel x) .idle →
    P ((s.channel x).receive g p) (channelRead g x (s.channel x) p)

  lose : ∀ {c}, P c .idle → P c.lose (channelInactive x c)

  readerIdle : ∀ {c}, P c .idle → c.isOpen = true → P { c with lost := true } (channelInactive x c)

  exceptionCaught : ∀ {c}, P c .idle → P c (.close x)

  peerClose : ∀ {c}, P c .idle → P { c with isOpen := false } .idle

  task : ∀ {s} t k ks, (gateway g).ReachableWhere C s → s.frame (.loop x) = .idle →
    (s.channel x).tasks t = k :: ks → P (s.channel x) .idle → P ((s.channel x).run k) .idle

  run : ∀ {s choice i f}, (gateway g).ReachableWhere C s → C s (.run (.loop x) choice) →
    (s.frame (.loop x)).Of (.loop x) →
    next g s (.loop x) choice (s.frame (.loop x)) = some (i, f) →
    P (s.channel x) (s.frame (.loop x)) → P ((s.exec (.loop x) i).channel x) f

theorem LocalInvariant.step {C : Condition State Action} {P : Channel → Frame → Prop}
    (hP : LocalInvariant g C x P) (hr : (gateway g).ReachableWhere C s)
    (hs : P (s.channel x) (s.frame (.loop x))) (hc : C s a) (h : Step g s a s') :
    P (s'.channel x) (s'.frame (.loop x)) := by
  have ho := reachable_owned hr.reachable
  have hx := h.onLoop (reachable_neverNotified hr.reachable) ho x
  generalize s'.channel x = c, s'.frame (.loop x) = f at hx ⊢
  cases hx with
  | foreign _ => exact hP.tasks _ hs
  | read hf hl => exact hP.read _ hr hf hl (hf ▸ hs)
  | inactive hf => exact hP.lose (hf ▸ hs)
  | readerIdle hf hopen => exact hP.readerIdle (hf ▸ hs) hopen
  | exceptionCaught hf => exact hP.exceptionCaught (hf ▸ hs)
  | peerClose hf => exact hP.peerClose (hf ▸ hs)
  | task hf hk => exact hP.tasks _ (hP.task _ _ _ hr hf hk (hf ▸ hs))
  | run hn => exact hP.run hr hc (ho _) hn hs

/-- The rule for invariants of one channel. -/
theorem LocalInvariant.reachable {C : Condition State Action} {P : Channel → Frame → Prop}
    (hP : LocalInvariant g C x P) (h : (gateway g).ReachableWhere C s) :
    P (s.channel x) (s.frame (.loop x)) :=
  h.invariant (P := fun s => P (s.channel x) (s.frame (.loop x))) hP.init
    fun _ _ _ hr hs hc ht => hP.step hr hs hc (gateway_step.mp ht)

end ImProxy
