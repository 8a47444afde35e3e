import ImProxy.Invariant.Entry
import ImProxy.Invariant.Flow
import ImProxy.Invariant.Unaccepted
import ImProxy.Transition.Purge

/-! # Runs without unauthenticated messages

What arrives on a channel before a CONNECT is accepted there is deleted from a run,
together with its handling. The run and what remains of it stay in states that look
alike to every handler, as long as the handlers that are deleted are harmless.
-/

set_option autoImplicit false

namespace ImProxy

open Concurrent Transition

variable {g : Gateway} {D : ChannelId → Bool} {s s' u : State} {t : Thread} {choice : Choice}
  {f f' : Frame} {i : Instr} {x y : ChannelId} {a : Action} {as : List Action} {c : Channel}
  {w : Write} {dropping : Bool} {p : Inbound} {k : Task}

/-! ## Deletion -/

/-- The packet answers a message that is deleted. -/
def answersDeleted (g : Gateway) (D : ChannelId → Bool) (s : State) (w : Write) : Bool :=
  match w.source with
  | .loop x => D x && unaccepted g ((s.channel x).received.take (w.request + 1))
  | .server _ => false

/-- The task was not posted by a deleted handler. -/
def stays (g : Gateway) (D : ChannelId → Bool) (s : State) : Task → Bool
  | .write w => !answersDeleted g D s w
  | .close => true

/-- Delete what arrives on the channels in `D` before a CONNECT is accepted there, the statements
of its handlers and the tasks they post. The memory is whether the handler that started last is
deleted. -/
def deletion (g : Gateway) (D : ChannelId → Bool) : Purge State Action Bool where
  keeps s dropping
    | .read x p => !(D x && unaccepted g ((s.channel x).received ++ [p]))
    | .run _ _ => !dropping
    | .task y t => ((s.channel y).tasks t).head?.all (stays g D s)
    | _ => true
  next s dropping
    | .read x p => D x && unaccepted g ((s.channel x).received ++ [p])
    | .run _ _ => dropping
    | .task _ _ => dropping
    | .peerClose _ => dropping
    | _ => false

def Action.startsHandler : Action → Bool
  | .peerClose _ => false
  | .task _ _ => false
  | .run _ _ => false
  | _ => true

/-- Handlers run one after another. -/
def Serial : Condition State Action := fun s a => a.startsHandler = true → ∀ t, s.frame t = .idle

/-- Nothing is deleted from what a channel receives. -/
def Spared (g : Gateway) (D : ChannelId → Bool) (s : State) (y : ChannelId) : Prop :=
  D y = true → unaccepted g ((s.channel y).received.take 1) = true → (s.channel y).received = []

/-- A step delivers a PUBLISH that is deleted. -/
def State.publishesEarly (g : Gateway) (D : ChannelId → Bool) (s : State) : Action → Bool
  | .read x (.publish msg) =>
    D x && unaccepted g ((s.channel x).received ++ [.publish msg]) && msg.qosLevel ≠ .failure
  | _ => false

/-- When a PUBLISH that is deleted arrives, every registered connection is closed. -/
def PublishesToNobody (g : Gateway) (D : ChannelId → Bool) : Condition State Action := fun s a =>
  s.publishesEarly g D a = true → AllClosed s

instance (s : State) : DecidablePred (PublishesToNobody g D s) := fun _ =>
  inferInstanceAs (Decidable (_ → _))

/-- A serial run in which every registered connection is closed when a PUBLISH that is deleted
arrives. -/
def SerialUnheard (g : Gateway) (D : ChannelId → Bool) : Condition State Action := fun s a =>
  Serial s a ∧ PublishesToNobody g D s a

/-! ## The simulation -/

/-- Frames without a write, in which an event loop can be while nothing but events were kept of
what its channel got. -/
def Frame.Silent (x : ChannelId) (f : Frame) : Prop :=
  f = .idle ∨ f = .close x ∨ f = .inactiveClose x

/-- A handler is being deleted: the remaining run is between two handlers, and the handler is
harmless. -/
def Dropped (g : Gateway) (D : ChannelId → Bool) (s s' : State) : Prop :=
  (∀ t, s'.frame t = .idle) ∧ ∃ x, D x = true ∧ unaccepted g (s.channel x).received = true ∧
    (s.channel x).received ≠ [] ∧ (∀ t, t ≠ .loop x → s.frame t = .idle) ∧
    (s.frame (.loop x)).Harmless x s

def Queued (g : Gateway) (D : ChannelId → Bool) (s s' : State) (y : ChannelId) (t : Thread) :
    Prop :=
  ((s'.channel y).tasks t).map Task.content =
    (((s.channel y).tasks t).filter (stays g D s)).map Task.content

/-- The states of a run and of what remains of it. -/
structure Purged (g : Gateway) (D : ChannelId → Bool) (s : State) (dropping : Bool)
    (s' : State) : Prop where

  reachable : (gateway g).Reachable s

  view : SameView s s'

  sent : ∀ y, Spared g D s y → SameSent (s.channel y) (s'.channel y)

  frame : dropping = false → s'.frame = s.frame

  dropped : dropping = true → Dropped g D s s'

  silent : dropping = false → ∀ x, D x = true → unaccepted g (s.channel x).received = true →
    (s.frame (.loop x)).Silent x

  queued : ∀ y t, Queued g D s s' y t

  /-- Deleted handlers post tasks to closed channels only. -/
  closed : ∀ y t, ∀ k ∈ (s.channel y).tasks t, stays g D s k = false →
    (s.channel y).isOpen = false

  unheard : ∀ y, ∀ w ∈ (s.channel y).sent, w.packet.isPublish = true →
    answersDeleted g D s w = false

theorem Spared.of_step (h : Step g s a s') (hs : Spared g D s' y) : Spared g D s y := by
  intro hd hu
  have hp := received_isPrefix h y
  cases hr : (s.channel y).received with
  | nil => rfl
  | cons m ms =>
    rw [hr] at hp hu
    obtain ⟨ns, hns⟩ := hp
    have := hs hd (by rw [← hns]; exact hu)
    rw [← hns] at this
    cases this

/-! ### The packets of deleted handlers -/

theorem answersDeleted_congr (h : ∀ x, (s'.channel x).received = (s.channel x).received) :
    answersDeleted g D s' = answersDeleted g D s := by
  funext w
  simp only [answersDeleted, h]

theorem stays_congr (h : ∀ x, (s'.channel x).received = (s.channel x).received) :
    stays g D s' = stays g D s := by
  funext k
  cases k with
  | write w => simp only [stays, answersDeleted_congr h]
  | close => rfl

theorem answersDeleted_step (hr : (gateway g).Reachable s) (h : Step g s a s')
    (hw : w ∈ (s.channel y).flow w.source) : answersDeleted g D s' w = answersDeleted g D s w := by
  unfold answersDeleted
  cases hs : w.source with
  | server n => rfl
  | loop x =>
    obtain ⟨m, hm, -⟩ := reachable_answered hr x y w (hs ▸ hw)
    obtain ⟨ns, hns⟩ := received_isPrefix h x
    have hl := (List.getElem?_eq_some_iff.mp hm).1
    simp only
    rw [← hns, List.take_append_of_le_length (by omega)]

theorem stays_step (hr : (gateway g).Reachable s) (h : Step g s a s')
    (hk : k ∈ (s.channel y).tasks t) : stays g D s' k = stays g D s k := by
  cases k with
  | close => rfl
  | write w =>
    have hw : w ∈ (s.channel y).flow w.source := by
      rw [((reachable_registry hr).packets y t w hk).1]
      exact List.mem_append_right _ (List.mem_filterMap.mpr ⟨_, hk, rfl⟩)
    simp only [stays, answersDeleted_step hr h hw]

theorem sent_exec (hw : w ∈ ((s.exec t i).channel y).sent) :
    w ∈ (s.channel y).sent ∨
      ∃ q, i = .write y q ∧ (s.channel y).isOpen = true ∧ w = ⟨q, t, s.request t⟩ := by
  rw [State.exec_sent] at hw
  cases i with
  | write z q =>
    simp only at hw
    split_ifs at hw with hz
    · obtain ⟨rfl, -, ho⟩ := hz
      rcases List.mem_append.mp hw with hw | hw
      · exact .inl hw
      · exact .inr ⟨q, rfl, ho, List.mem_singleton.mp hw⟩
    · exact .inl hw
  | _ => exact .inl hw

namespace Purged

/-! ### Steps -/

theorem resume (h : Purged g D s dropping s') (hi : ∀ t, s.frame t = .idle) :
    Purged g D s false s' := by
  refine ⟨h.reachable, h.view, h.sent, fun _ => ?_, fun hd => absurd hd Bool.false_ne_true,
    fun _ x _ _ => .inl (hi _), h.queued, h.closed, h.unheard⟩
  cases dropping with
  | false => exact h.frame rfl
  | true =>
    funext t
    rw [(h.dropped rfl).1, hi]

theorem idle (h : Purged g D s dropping s') (hi : s.frame t = .idle) : s'.frame t = .idle := by
  cases dropping with
  | false => rw [h.frame rfl]; exact hi
  | true => exact (h.dropped rfl).1 t

theorem step {v v' : State} {dropping' : Bool} (h : Purged g D s dropping s')
    (hs : Step g s a v) (hview : SameView v v')
    (hsent : ∀ y, Spared g D v y → SameSent (v.channel y) (v'.channel y))
    (hframe : dropping' = false → v'.frame = v.frame)
    (hdropped : dropping' = true → Dropped g D v v')
    (hsilent : dropping' = false → ∀ x, D x = true → unaccepted g (v.channel x).received = true →
      (v.frame (.loop x)).Silent x)
    (hqueued : ∀ y t, Queued g D v v' y t)
    (hclosed : ∀ y t, ∀ k ∈ (v.channel y).tasks t, k ∈ (s.channel y).tasks t ∨
      stays g D v k = true ∨ (v.channel y).isOpen = false)
    (hunheard : ∀ y, ∀ w ∈ (v.channel y).sent, w ∈ (s.channel y).sent ∨
      (w.packet.isPublish = true → answersDeleted g D v w = false)) :
    Purged g D v dropping' v' := by
  refine ⟨h.reachable.step (gateway_step.mpr hs), hview, hsent, hframe, hdropped, hsilent,
    hqueued, ?_, ?_⟩
  · intro y t k hk hd
    rcases hclosed y t k hk with hk | hk | hk
    · rw [stays_step h.reachable hs hk] at hd
      refine Bool.eq_false_iff.mpr fun ho => ?_
      have hc := h.closed y t k hk hd
      rw [isOpen_of_step hs ho] at hc
      cases hc
    · rw [hk] at hd; cases hd
    · exact hk
  · intro y w hw hp
    rcases hunheard y w hw with hw | hw
    · rw [answersDeleted_step h.reachable hs (mem_flow_of_sent hw)]
      exact h.unheard y w hw hp
    · exact hw hp

theorem queued_of_tasks {v v' : State} (h : Purged g D s dropping s') (hs : Step g s a v)
    (ht : (v.channel y).tasks t = (s.channel y).tasks t)
    (ht' : (v'.channel y).tasks t = (s'.channel y).tasks t) : Queued g D v v' y t := by
  rw [Queued, ht, ht', h.queued y t]
  exact congrArg _ (List.filter_congr fun k hk => (stays_step h.reachable hs hk).symm)

theorem start {l : Channel → Channel} (h : Purged g D s false s')
    (hs : Step g s a (s.start x l f))
    (hl : ∀ c c', Alike c c' → Alike (l c) (l c'))
    (hl' : ∀ c c', SameSent c c' → SameSent (l c) (l c'))
    (hq : ∀ c, (l c).tasks = c.tasks ∧ (l c).sent = c.sent)
    (hf : D x = true → unaccepted g (l (s.channel x)).received = true → f.Silent x) :
    Purged g D (s.start x l f) false (s'.start x l f) := by
  have tasks : ∀ (u : State) y, ((u.start x l f).channel y).tasks = (u.channel y).tasks := by
    intro u y
    rw [State.start_channel]
    split_ifs
    · exact (hq _).1
    · rfl
  refine h.step hs ⟨h.view.connectionDescriptors, fun y => ?_⟩ (fun y hy => ?_) (fun _ => ?_)
    (fun hd => absurd hd Bool.false_ne_true) (fun _ y hd hu => ?_)
    (fun y t => h.queued_of_tasks hs (by rw [tasks]) (by rw [tasks]))
    (fun y t k hk => .inl (tasks s y ▸ hk)) (fun y w hw => .inl ?_)
  · rw [State.start_channel, State.start_channel]
    split_ifs
    · exact hl _ _ (h.view.channel y)
    · exact h.view.channel y
  · rw [State.start_channel, State.start_channel]
    split_ifs
    · exact hl' _ _ (h.sent y (hy.of_step hs))
    · exact h.sent y (hy.of_step hs)
  · simp only [State.start, State.setFrame, State.update_frame, h.frame rfl]
  · rw [State.start_channel] at hu
    rw [State.start_frame_loop]
    split_ifs at hu ⊢ with hy
    · subst hy; exact hf hd hu
    · exact h.silent rfl y hd hu
  · rw [State.start_channel] at hw
    split_ifs at hw
    · exact (hq _).2 ▸ hw
    · exact hw

theorem silent_inactive (h : Purged g D s dropping s')
    (hu : unaccepted g (s.channel x).received = true) :
    (channelInactive x (s.channel x)).Silent x := by
  simp only [channelInactive, clientID_of_unaccepted h.reachable hu]
  exact .inr (.inr rfl)

theorem frames (h : Purged g D s false s') (hs : Step g s a (s.setFrame t f))
    (hf : ∀ x, t = .loop x → f.Silent x) :
    Purged g D (s.setFrame t f) false (s'.setFrame t f) := by
  refine h.step hs ⟨h.view.connectionDescriptors, h.view.channel⟩
    (fun y hy => h.sent y (hy.of_step hs)) (fun _ => ?_) (fun hd => absurd hd Bool.false_ne_true)
    (fun _ x hd hu => ?_) (fun y t => h.queued_of_tasks hs rfl rfl) (fun _ _ _ hk => .inl hk)
    (fun _ _ hw => .inl hw)
  · simp only [State.setFrame, h.frame rfl]
  · rw [State.setFrame_frame]
    split_ifs with ht
    · exact hf x ht.symm
    · exact h.silent rfl x hd hu

theorem write {q : MqttMessage} (h : Purged g D s false s')
    (hn : next g s t choice (s.frame t) = some (.write y q, f)) :
    answersDeleted g D s ⟨q, t, s.request t⟩ = false := by
  cases t with
  | server n => rfl
  | loop x =>
    simp only [answersDeleted, State.request]
    rw [List.take_of_length_le (by omega), Bool.eq_false_iff]
    intro hd
    rw [Bool.and_eq_true] at hd
    rcases h.silent rfl x hd.1 hd.2 with hf | hf | hf <;> rw [hf] at hn <;> cases hn

theorem run_received : ((((s.exec t i).setFrame t f)).channel y).received =
    (s.channel y).received := by
  rw [State.setFrame_channel, State.exec_received]

theorem run (h : Purged g D s false s') (hn : next g s t choice (s.frame t) = some (i, f)) :
    Purged g D ((s.exec t i).setFrame t f) false ((s'.exec t i).setFrame t f) := by
  have hs : Step g s (.run t choice) ((s.exec t i).setFrame t f) := .run hn
  refine h.step hs ⟨?_, Alike.exec h.view.channel⟩ (fun y hy => (h.sent y (hy.of_step hs)).exec)
    (fun _ => ?_) (fun hd => absurd hd Bool.false_ne_true) (fun _ x hd hu => ?_)
    (fun y u => ?_) (fun y u k hk => ?_) (fun y w hw => ?_)
  · rw [State.setFrame_connectionDescriptors, State.setFrame_connectionDescriptors,
      State.exec_connectionDescriptors, State.exec_connectionDescriptors,
      h.view.connectionDescriptors]
  · simp only [State.setFrame, State.exec_frame, h.frame rfl]
  · rw [run_received] at hu
    have hsil := h.silent rfl x hd hu
    rw [State.setFrame_frame]
    split_ifs with ht
    · subst ht
      rcases hsil with hf | hf | hf <;> rw [hf] at hn <;> cases hn <;> exact .inl rfl
    · rw [State.exec_frame]; exact hsil
  · have hq := h.queued y u
    rw [Queued] at hq ⊢
    rw [stays_congr fun _ => run_received, State.setFrame_channel, State.setFrame_channel,
      State.exec_tasks, State.exec_tasks]
    cases i with
    | write z q =>
      simp only
      split_ifs
      · rw [List.filter_append, List.map_append, List.map_append, hq]
        simp [stays, h.write hn, Task.content]
      · exact hq
    | close z =>
      simp only
      split_ifs
      · rw [List.filter_append, List.map_append, List.map_append, hq]
        rfl
      · exact hq
    | _ => exact hq
  · rw [stays_congr fun _ => run_received]
    rcases tasks_exec hk with hk | ⟨rfl, -, ⟨q, rfl, rfl⟩ | ⟨-, rfl⟩⟩
    · exact .inl hk
    · exact .inr (.inl (by simp [stays, h.write hn]))
    · exact .inr (.inl rfl)
  · rw [answersDeleted_congr fun _ => run_received]
    rcases sent_exec hw with hw | ⟨q, rfl, -, rfl⟩
    · exact .inl hw
    · exact .inr fun _ => h.write hn

theorem update {l l' : Channel → Channel} (h : Purged g D s dropping s')
    (hs : Step g s a (s.update y l))
    (hl : Alike (l (s.channel y)) (l' (s'.channel y)))
    (hl' : SameSent (s.channel y) (s'.channel y) → SameSent (l (s.channel y)) (l' (s'.channel y)))
    (hr : (l (s.channel y)).received = (s.channel y).received)
    (ht : ∀ t, ((l' (s'.channel y)).tasks t).map Task.content =
      (((l (s.channel y)).tasks t).filter (stays g D s)).map Task.content)
    (hk : ∀ t, ∀ k ∈ (l (s.channel y)).tasks t, k ∈ (s.channel y).tasks t)
    (hw : ∀ w ∈ (l (s.channel y)).sent, w ∈ (s.channel y).sent ∨ answersDeleted g D s w = false) :
    Purged g D (s.update y l) dropping (s'.update y l') := by
  have received : ∀ z, ((s.update y l).channel z).received = (s.channel z).received := by
    intro z
    rw [State.update_channel]
    split_ifs with hz
    · rw [hz]; exact hr
    · rfl
  refine h.step hs ⟨h.view.connectionDescriptors, fun z => ?_⟩ (fun z hz => ?_) h.frame ?_ ?_ ?_ ?_
    ?_
  · rw [State.update_channel, State.update_channel]
    split_ifs with hz
    · rw [hz]; exact hl
    · exact h.view.channel z
  · have hz := h.sent z (hz.of_step hs)
    rw [State.update_channel, State.update_channel]
    split_ifs with hy
    · rw [hy] at hz ⊢; exact hl' hz
    · exact hz
  · intro hd
    obtain ⟨hi, x, hx, hu, hne, ho, hf⟩ := h.dropped hd
    exact ⟨hi, x, hx, by rw [received]; exact hu, by rw [received]; exact hne, ho,
      hf.mono rfl fun _ => isOpen_of_step hs⟩
  · intro hd x hx hu
    rw [received] at hu
    exact h.silent hd x hx hu
  · intro z t
    have hq := h.queued z t
    rw [Queued] at hq ⊢
    rw [stays_congr received, State.update_channel, State.update_channel]
    split_ifs with hz
    · rw [hz]; exact ht t
    · exact hq
  · intro z t k hk'
    rw [State.update_channel] at hk'
    split_ifs at hk' with hz
    · subst hz; exact .inl (hk _ _ hk')
    · exact .inl hk'
  · intro z w hw'
    rw [answersDeleted_congr received]
    rw [State.update_channel] at hw'
    split_ifs at hw' with hz
    · subst hz; exact (hw w hw').imp_right fun hw _ => hw
    · exact .inl hw'

theorem keepTask {ks : List Task} (h : Purged g D s dropping s')
    (hf : s.frame (.loop y) = .idle) (hk : (s.channel y).tasks t = k :: ks)
    (hd : stays g D s k = true) :
    ∃ v', Step g s' (.task y t) v' ∧ Purged g D
      (s.update y fun c => { c.run k with tasks := Function.update c.tasks t ks }) dropping v' := by
  have hq := h.queued y t
  rw [Queued, hk, List.filter_cons_of_pos hd, List.map_cons] at hq
  obtain ⟨k', ks', hk', hc, hcs⟩ := List.map_eq_cons_iff.mp hq
  refine ⟨_, .task (h.idle hf) hk', h.update (.task hf hk) ?_ (fun hs => ?_) (by simp)
    (fun u => ?_) (fun u l hl => ?_) (fun w hw => ?_)⟩
  · have hr := (h.view.channel y).run hc
    exact ⟨hr.attributes, hr.pipeline, hr.descriptors, hr.lost, hr.lossHandled, hr.deregistered,
      hr.isOpen⟩
  · have hr := hs.run hc
    exact ⟨hr.isOpen, hr.sent⟩
  · simp only [Function.update_apply]
    split_ifs
    · exact hcs
    · exact h.queued y u
  · simp only [Function.update_apply] at hl
    split_ifs at hl with hu
    · rw [hu, hk]; exact List.mem_cons_of_mem _ hl
    · exact hl
  · cases k with
    | close => exact .inl hw
    | write v =>
      simp only [Channel.run_write_sent] at hw
      split_ifs at hw
      · rcases List.mem_append.mp hw with hw | hw
        · exact .inl hw
        · rw [List.mem_singleton.mp hw]
          exact .inr (by simpa [stays] using hd)
      · exact .inl hw

/-- A task of a deleted handler finds its channel closed. -/
theorem dropTask {ks : List Task} (h : Purged g D s dropping s')
    (hf : s.frame (.loop y) = .idle) (hk : (s.channel y).tasks t = k :: ks)
    (hd : stays g D s k = false) :
    Purged g D (s.update y fun c => { c.run k with tasks := Function.update c.tasks t ks })
      dropping s' := by
  have ho := h.closed y t k (by rw [hk]; exact List.mem_cons_self) hd
  have hrun : (s.channel y).run k = s.channel y := by
    cases k with
    | close => cases hd
    | write w => simp [Channel.run, ho]
  have hs' : s'.update y (fun c => c) = s' := by simp [State.update]
  rw [← hs']
  refine h.update (.task hf hk) ?_ (fun hs => ?_) (by simp) (fun u => ?_) (fun u l hl => ?_)
    (fun w hw => ?_)
  · have ha := h.view.channel y
    rw [hrun]
    exact ⟨ha.attributes, ha.pipeline, ha.descriptors, ha.lost, ha.lossHandled, ha.deregistered,
      ha.isOpen⟩
  · rw [hrun]
    exact ⟨hs.isOpen, hs.sent⟩
  · have hq := h.queued y u
    rw [Queued] at hq
    simp only [Function.update_apply]
    split_ifs with hu
    · subst hu
      rw [hq, hk, List.filter_cons_of_neg (by simp [hd])]
    · exact hq
  · simp only [Function.update_apply] at hl
    split_ifs at hl with hu
    · rw [hu, hk]; exact List.mem_cons_of_mem _ hl
    · exact hl
  · rw [hrun] at hw
    exact .inl hw

theorem drop (h : Purged g D s false s') (hi : ∀ t, s.frame t = .idle)
    (hs : Step g s (.read x p) (s.start x (fun c => c.receive g p)
      (channelRead g x (s.channel x) p)))
    (hx : D x = true) (hu : unaccepted g ((s.channel x).received ++ [p]) = true)
    (hp : PublishesToNobody g D s (.read x p)) :
    Purged g D (s.start x (fun c => c.receive g p) (channelRead g x (s.channel x) p)) true s' := by
  obtain ⟨hu₁, hu₂⟩ : unaccepted g (s.channel x).received = true ∧ accepting g p = false := by
    rw [unaccepted_append, Bool.and_eq_true] at hu
    simpa [unaccepted] using hu
  have received : ((s.start x (fun c => c.receive g p)
      (channelRead g x (s.channel x) p)).channel x).received = (s.channel x).received ++ [p] := by
    rw [State.start_channel_self]; rfl
  have tasks : ∀ y, ((s.start x (fun c => c.receive g p)
      (channelRead g x (s.channel x) p)).channel y).tasks = (s.channel y).tasks := by
    intro y
    rw [State.start_channel]
    split_ifs <;> rfl
  refine h.step hs ⟨h.view.connectionDescriptors, fun y => ?_⟩ (fun y hy => ?_)
    (fun hd => absurd hd.symm Bool.false_ne_true)
    (fun _ => ⟨fun t => h.idle (hi t), x, hx, received ▸ hu, by rw [received]; simp,
      fun t ht => ?_, ?_⟩)
    (fun hd => absurd hd.symm Bool.false_ne_true)
    (fun y t => h.queued_of_tasks hs (by rw [tasks]) rfl) (fun y t k hk => .inl (tasks y ▸ hk))
    (fun y w hw => .inl ?_)
  · rw [State.start_channel]
    split_ifs
    · have ha := h.view.channel y
      exact ⟨ha.attributes, ha.pipeline,
        ha.descriptors.trans (newDescriptors_of_unaccepted hu₂).symm, ha.lost, ha.lossHandled,
        ha.deregistered, ha.isOpen⟩
    · exact h.view.channel y
  · have hyx : y ≠ x := by
      rintro rfl
      have := hy hx (unaccepted_of_isPrefix (List.take_prefix _ _) (received ▸ hu))
      rw [received] at this
      simp at this
    rw [State.start_channel_of_ne _ _ _ hyx]
    exact h.sent y (hy.of_step hs)
  · exact (State.setFrame_frame_of_ne _ _ ht).trans (hi t)
  · rw [State.start_frame_self]
    have hf : (channelRead g x (s.channel x) p).Harmless x s := by
      refine harmless_read (clientID_of_unaccepted h.reachable hu₁) hu₂ ?_
      rintro msg rfl hq
      exact hp (by simpa [State.publishesEarly, hx, hu] using hq)
    exact hf.mono rfl fun _ => isOpen_of_step hs
  · rw [State.start_channel] at hw
    split_ifs at hw <;> exact hw

theorem dropRun (h : Purged g D s true s') (hn : next g s t choice (s.frame t) = some (i, f)) :
    Purged g D ((s.exec t i).setFrame t f) true s' := by
  obtain ⟨hi', x, hx, hu, hne, ho, hf⟩ := h.dropped rfl
  have ht : t = .loop x := by
    by_contra ht
    rw [ho t ht] at hn
    cases hn
  subst ht
  obtain ⟨hf', hi⟩ := harmless_next (reachable_registry h.reachable)
    (reachable_owned h.reachable (.loop x)) hf hn
  have hs : Step g s (.run (.loop x) choice) ((s.exec (.loop x) i).setFrame (.loop x) f) := .run hn
  have source : ∀ q, answersDeleted g D s ⟨q, .loop x, s.request (.loop x)⟩ = true := by
    intro q
    simp only [answersDeleted, State.request, hx, Bool.true_and]
    rw [List.take_of_length_le (by omega)]
    exact hu
  refine h.step hs ⟨?_, fun y => hi.alike (h.view.channel y)⟩ (fun y hy => ?_)
    (fun hd => absurd hd.symm Bool.false_ne_true)
    (fun _ => ⟨hi', x, hx, by rw [run_received]; exact hu, by rw [run_received]; exact hne,
      fun t ht => ?_, ?_⟩)
    (fun hd => absurd hd.symm Bool.false_ne_true) (fun y u => ?_)
    (fun y u k hk => (hi.task hk).imp_right .inr) (fun y w hw => ?_)
  · rw [State.setFrame_connectionDescriptors, hi.connectionDescriptors]
    exact h.view.connectionDescriptors
  · have hyx : y ≠ x := by
      rintro rfl
      exact hne (hy.of_step hs hx (unaccepted_of_isPrefix (List.take_prefix _ _) hu))
    exact hi.sameSent hyx (h.sent y (hy.of_step hs))
  · rw [State.setFrame_frame_of_ne _ _ ht, State.exec_frame]
    exact ho t ht
  · rw [State.setFrame_frame_self]
    exact hf'.mono (by simpa using hi.connectionDescriptors) fun _ => isOpen_of_step hs
  · have hq := h.queued y u
    rw [Queued] at hq ⊢
    rw [stays_congr fun _ => run_received, State.setFrame_channel, State.exec_tasks, hq]
    cases hi with
    | push =>
      simp only
      split_ifs
      · simp [stays, source]
      · rfl
    | _ => simp
  · rw [State.setFrame_channel] at hw
    rcases sent_exec hw with hw | ⟨q, hiq, ho', rfl⟩
    · exact .inl hw
    · refine .inr fun hp => ?_
      rw [hi.isPublish hiq ho' (reachable_handles h.reachable x)] at hp
      cases hp

theorem keep {v : State} (h : Purged g D s dropping s') (hc : Serial s a) (hs : Step g s a v)
    (hk : (deletion g D).keeps s dropping a = true) :
    ∃ v', Step g s' a v' ∧ Purged g D v ((deletion g D).next s dropping a) v' := by
  cases hs with
  | @read x p hf hl =>
    have h := h.resume (hc rfl)
    have ha := h.view.channel x
    have hn : (deletion g D).next s dropping (.read x p) = false := by
      simpa only [deletion, Bool.not_eq_true'] using hk
    rw [hn]
    refine ⟨_, .read (h.idle hf) (ha.lost.trans hl), ?_⟩
    rw [ha.channelRead]
    refine h.start (.read hf hl) (fun c c' hc => hc.receive p) (fun c c' hc => ⟨hc.isOpen, hc.sent⟩)
      (fun c => ⟨rfl, rfl⟩) fun hx hu => ?_
    simp only [deletion, hx, Bool.true_and] at hn
    exact absurd hu (by rw [Channel.receive, hn]; exact Bool.false_ne_true)
  | @inactive x hf hl =>
    have h := h.resume (hc rfl)
    have ha := h.view.channel x
    refine ⟨_, .inactive (h.idle hf) (ha.deregistered.trans hl), ?_⟩
    rw [ha.channelInactive]
    exact h.start (.inactive hf hl) (fun c c' hc => hc.lose) (fun c c' hc => ⟨rfl, hc.sent⟩)
      (fun c => ⟨rfl, rfl⟩) fun _ hu => h.silent_inactive hu
  | @readerIdle x hf ho hl =>
    have h := h.resume (hc rfl)
    have ha := h.view.channel x
    refine ⟨_, .readerIdle (h.idle hf) (ha.isOpen ho) (ha.pipeline ▸ hl), ?_⟩
    rw [ha.channelInactive]
    exact h.start (.readerIdle hf ho hl)
      (fun c c' hc => ⟨hc.attributes, hc.pipeline, hc.descriptors, rfl, hc.lossHandled,
        hc.deregistered, hc.isOpen⟩)
      (fun c c' hc => ⟨hc.isOpen, hc.sent⟩) (fun c => ⟨rfl, rfl⟩) fun _ hu => h.silent_inactive hu
  | exceptionCaught hf =>
    have h := h.resume (hc rfl)
    exact ⟨_, .exceptionCaught (h.idle hf), h.frames (.exceptionCaught hf) fun x hx => by
      cases hx; exact .inr (.inl rfl)⟩
  | call hf =>
    have h := h.resume (hc rfl)
    exact ⟨_, .call (h.idle hf), h.frames (.call hf) fun x hx => by cases hx⟩
  | @peerClose x hf =>
    exact ⟨_, .peerClose (h.idle hf), h.update (.peerClose hf) (h.view.channel _).close
      (fun hs => ⟨rfl, hs.sent⟩) rfl (h.queued x) (fun _ _ hk => hk) fun _ hw => .inl hw⟩
  | task hf ht => exact h.keepTask hf ht (by simpa [deletion, ht] using hk)
  | run hn =>
    cases dropping with
    | true => cases hk
    | false => exact ⟨_, .run (by rw [h.view.next, h.frame rfl]; exact hn), h.run hn⟩

theorem delete {v : State} (h : Purged g D s dropping s') (hc : SerialUnheard g D s a)
    (hs : Step g s a v) (hk : (deletion g D).keeps s dropping a = false) :
    Purged g D v ((deletion g D).next s dropping a) s' := by
  cases hs with
  | @read x p hf hl =>
    obtain ⟨hx, hu⟩ : D x = true ∧ unaccepted g ((s.channel x).received ++ [p]) = true := by
      simpa [deletion] using hk
    have hn : (deletion g D).next s dropping (.read x p) = true := by simp [deletion, hx, hu]
    rw [hn]
    exact (h.resume (hc.1 rfl)).drop (hc.1 rfl) (.read hf hl) hx hu hc.2
  | run hn =>
    cases dropping with
    | true => exact h.dropRun hn
    | false => cases hk
  | task hf ht => exact h.dropTask hf ht (by simpa [deletion, ht] using hk)
  | _ => cases hk

theorem init : Purged g D (.init g) false (.init g) where
  reachable := .init
  view := ⟨rfl, fun _ => .refl _⟩
  sent _ _ := ⟨rfl, rfl⟩
  frame _ := rfl
  dropped hd := absurd hd Bool.false_ne_true
  silent _ _ _ _ := .inl rfl
  queued _ _ := rfl
  closed _ _ _ hk := by cases hk
  unheard _ _ hw := by cases hw

/-- What remains runs in step with the run. -/
theorem simulates : (deletion g D).Simulates (gateway g) (SerialUnheard g D) (Purged g D) where
  keep h hc hs hk := by
    obtain ⟨v', hv, h⟩ := h.keep hc.1 (gateway_step.mp hs) hk
    exact ⟨v', gateway_step.mpr hv, h⟩
  delete h hc hs hk := h.delete hc (gateway_step.mp hs) hk

end Purged

end ImProxy
