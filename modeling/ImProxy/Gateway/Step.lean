import ImProxy.Gateway.Processor
import ImProxy.Transition.System

/-! # The gateway as a transition system

Any thread may take its next step at any time. An event loop that is between
two handlers starts a handler for what its channel delivers, or runs a task that
another thread has posted to it.
-/

set_option autoImplicit false

namespace ImProxy

open Transition

/-- The calls of the gateway's own API. -/
inductive Call
  | pushMsg2All (pushContent : String)
  | notifyAllDisconnect
  | closeWithMessage (clientId : String)
  | closeConnection (clientID : String) (closeImmediately : Bool)
  deriving DecidableEq, Repr

def Call.frame : Call → Frame
  | .pushMsg2All pushContent => .push pushContent none false .iterator
  | .notifyAllDisconnect => .notifyAll .iterator
  | .closeWithMessage clientId => .closeWithMessage (.get clientId)
  | .closeConnection clientID closeImmediately =>
    .closeConnection (.get clientID closeImmediately)

inductive Action
  /-- A message the decoder of a channel hands to the dispatcher. Messages decoded together
  with the one that closed the channel are still delivered. -/
  | read (x : ChannelId) (p : Inbound)
  /-- The channel is closed, by the peer if by nobody else, and Netty delivers
  `channelInactive`. -/
  | inactive (x : ChannelId)
  /-- The read-idle event of an open channel, which delivers `channelInactive` by hand. -/
  | readerIdle (x : ChannelId)
  | exceptionCaught (x : ChannelId)
  /-- The connection is closed below the pipeline, ahead of `channelInactive`. -/
  | peerClose (x : ChannelId)
  | call (n : ℕ) (c : Call)
  /-- Event loop `y` runs the oldest task that thread `t` has posted to it. -/
  | task (y : ChannelId) (t : Thread)
  | run (t : Thread) (choice : Choice)

/-- The descriptors of a channel after a message: one more if it is a CONNECT that passes all
checks. -/
def newDescriptors (g : Gateway) (c : Channel) : Inbound → List DescriptorCell
  | .connect msg =>
    match refusal g msg with
    | some _ => c.descriptors
    | none => c.descriptors ++ [⟨msg, .disconnected⟩]
  | _ => c.descriptors

def Channel.receive (g : Gateway) (c : Channel) (p : Inbound) : Channel :=
  { c with received := c.received ++ [p], descriptors := newDescriptors g c p }

def Channel.lose (c : Channel) : Channel :=
  { c with isOpen := false, lost := true, deregistered := true }

def Channel.runTask (c : Channel) (t : Thread) : Option Channel :=
  match c.tasks t with
  | [] => none
  | k :: ks => some { c.run k with tasks := Function.update c.tasks t ks }

namespace State

def init (g : Gateway) : State where
  connectionDescriptors := ∅
  channel x := .init (g.transport x)
  frame _ := .idle

/-- Start a handler of a channel, with what its event changes. -/
def start (s : State) (x : ChannelId) (f : Channel → Channel) (frame : Frame) : State :=
  (s.update x f).setFrame (.loop x) frame

section Start

variable (s : State) (x y : ChannelId) (l : Channel → Channel) (f : Frame) (t : Thread)

@[simp] theorem start_connectionDescriptors :
    (s.start x l f).connectionDescriptors = s.connectionDescriptors := rfl

theorem start_channel :
    (s.start x l f).channel y = if y = x then l (s.channel y) else s.channel y :=
  update_channel s x y l

@[simp] theorem start_channel_self : (s.start x l f).channel x = l (s.channel x) :=
  update_channel_self s x l

theorem start_frame : (s.start x l f).frame t = if t = .loop x then f else s.frame t :=
  setFrame_frame _ _ _ _

@[simp] theorem start_frame_self : (s.start x l f).frame (.loop x) = f := setFrame_frame_self _ _ _

theorem start_frame_loop :
    (s.start x l f).frame (.loop y) = if y = x then f else s.frame (.loop y) := by
  simp only [start_frame, Thread.loop.injEq]

variable {x y} in
theorem start_channel_of_ne (h : y ≠ x) : (s.start x l f).channel y = s.channel y :=
  update_channel_of_ne s l h

end Start

def step (g : Gateway) (a : Action) (s : State) : Option State :=
  match a with
  | .read x p =>
    if (s.frame (.loop x)).isIdle && !(s.channel x).lost then
      some (s.start x (fun c => c.receive g p) (channelRead g x (s.channel x) p))
    else none
  | .inactive x =>
    if (s.frame (.loop x)).isIdle && !(s.channel x).deregistered then
      some (s.start x Channel.lose (channelInactive x (s.channel x)))
    else none
  | .readerIdle x =>
    if (s.frame (.loop x)).isIdle && (s.channel x).isOpen &&
        decide (0 < (s.channel x).pipeline.readerIdleTime) then
      some (s.start x (fun c => { c with lost := true }) (channelInactive x (s.channel x)))
    else none
  | .exceptionCaught x =>
    if (s.frame (.loop x)).isIdle then some (s.setFrame (.loop x) (.close x)) else none
  | .peerClose x =>
    if (s.frame (.loop x)).isIdle then some (s.update x fun c => { c with isOpen := false })
    else none
  | .call n c =>
    if (s.frame (.server n)).isIdle then some (s.setFrame (.server n) c.frame) else none
  | .task y t =>
    if (s.frame (.loop y)).isIdle then
      ((s.channel y).runTask t).map fun c => s.update y fun _ => c
    else none
  | .run t choice =>
    (next g s t choice (s.frame t)).map fun (i, f) => (s.exec t i).setFrame t f

end State

/-- What a step of the gateway can be, with the guards it has passed. -/
inductive Step (g : Gateway) (s : State) : Action → State → Prop where

  | read {x : ChannelId} {p : Inbound} : s.frame (.loop x) = .idle →
      (s.channel x).lost = false →
      Step g s (.read x p)
        (s.start x (fun c => c.receive g p) (channelRead g x (s.channel x) p))

  | inactive {x : ChannelId} : s.frame (.loop x) = .idle →
      (s.channel x).deregistered = false →
      Step g s (.inactive x) (s.start x Channel.lose (channelInactive x (s.channel x)))

  | readerIdle {x : ChannelId} : s.frame (.loop x) = .idle → (s.channel x).isOpen = true →
      0 < (s.channel x).pipeline.readerIdleTime →
      Step g s (.readerIdle x)
        (s.start x (fun c => { c with lost := true }) (channelInactive x (s.channel x)))

  | exceptionCaught {x : ChannelId} : s.frame (.loop x) = .idle →
      Step g s (.exceptionCaught x) (s.setFrame (.loop x) (.close x))

  | peerClose {x : ChannelId} : s.frame (.loop x) = .idle →
      Step g s (.peerClose x) (s.update x fun c => { c with isOpen := false })

  | call {n : ℕ} {c : Call} : s.frame (.server n) = .idle →
      Step g s (.call n c) (s.setFrame (.server n) c.frame)

  | task {y : ChannelId} {t : Thread} {k : Task} {ks : List Task} :
      s.frame (.loop y) = .idle → (s.channel y).tasks t = k :: ks →
      Step g s (.task y t)
        (s.update y fun c => { c.run k with tasks := Function.update c.tasks t ks })

  | run {t : Thread} {choice : Choice} {i : Instr} {f : Frame} :
      next g s t choice (s.frame t) = some (i, f) →
      Step g s (.run t choice) ((s.exec t i).setFrame t f)

theorem Channel.runTask_eq_some {c c' : Channel} {t : Thread} :
    c.runTask t = some c' ↔ ∃ k ks, c.tasks t = k :: ks ∧
      c' = { c.run k with tasks := Function.update c.tasks t ks } := by
  unfold runTask
  cases h : c.tasks t <;> simp [eq_comm]

theorem step_iff {g : Gateway} {a : Action} {s s' : State} :
    State.step g a s = some s' ↔ Step g s a s' := by
  constructor
  · intro h
    cases a with
    | read x p =>
      simp only [State.step, Option.ite_none_right_eq_some, Bool.and_eq_true, Frame.isIdle_iff,
        Bool.not_eq_true', Option.some.injEq] at h
      obtain ⟨⟨hf, hl⟩, rfl⟩ := h
      exact .read hf hl
    | inactive x =>
      simp only [State.step, Option.ite_none_right_eq_some, Bool.and_eq_true, Frame.isIdle_iff,
        Bool.not_eq_true', Option.some.injEq] at h
      obtain ⟨⟨hf, hd⟩, rfl⟩ := h
      exact .inactive hf hd
    | readerIdle x =>
      simp only [State.step, Option.ite_none_right_eq_some, Bool.and_eq_true, Frame.isIdle_iff,
        decide_eq_true_eq, Option.some.injEq] at h
      obtain ⟨⟨⟨hf, ho⟩, hr⟩, rfl⟩ := h
      exact .readerIdle hf ho hr
    | exceptionCaught x =>
      simp only [State.step, Option.ite_none_right_eq_some, Frame.isIdle_iff,
        Option.some.injEq] at h
      obtain ⟨hf, rfl⟩ := h
      exact .exceptionCaught hf
    | peerClose x =>
      simp only [State.step, Option.ite_none_right_eq_some, Frame.isIdle_iff,
        Option.some.injEq] at h
      obtain ⟨hf, rfl⟩ := h
      exact .peerClose hf
    | call n c =>
      simp only [State.step, Option.ite_none_right_eq_some, Frame.isIdle_iff,
        Option.some.injEq] at h
      obtain ⟨hf, rfl⟩ := h
      exact .call hf
    | task y t =>
      simp only [State.step, Option.ite_none_right_eq_some, Frame.isIdle_iff,
        Option.map_eq_some_iff, Channel.runTask_eq_some] at h
      obtain ⟨hf, c, ⟨k, ks, hk, rfl⟩, rfl⟩ := h
      exact .task hf hk
    | run t choice =>
      simp only [State.step, Option.map_eq_some_iff] at h
      obtain ⟨⟨i, f⟩, hn, rfl⟩ := h
      exact .run hn
  · intro h
    cases h with
    | read hf hl => simp [State.step, hf, hl]
    | inactive hf hd => simp [State.step, hf, hd]
    | readerIdle hf ho hr => simp [State.step, hf, ho, hr]
    | exceptionCaught hf => simp [State.step, hf]
    | peerClose hf => simp [State.step, hf]
    | call hf => simp [State.step, hf]
    | task hf hk => simp [State.step, hf, Channel.runTask, hk, State.update]
    | run hn => simp [State.step, hn]

/-- What a step can do to a channel, by the steps that do it. -/
inductive ChannelStep (g : Gateway) (s : State) (y : ChannelId) : Action → Channel → Prop

  | still {a : Action} : (∀ t choice, a ≠ .run t choice) → ChannelStep g s y a (s.channel y)

  | read {p : Inbound} : s.frame (.loop y) = .idle →
      ChannelStep g s y (.read y p) ((s.channel y).receive g p)

  /-- An event that changes flags of the channel only, and opens no channel. -/
  | event {a : Action} {isOpen lost deregistered : Bool} : (∀ t choice, a ≠ .run t choice) →
      (isOpen = true → (s.channel y).isOpen = true) →
      ChannelStep g s y a { s.channel y with isOpen, lost, deregistered }

  | task {t : Thread} {k : Task} {ks : List Task} : s.frame (.loop y) = .idle →
      (s.channel y).tasks t = k :: ks →
      ChannelStep g s y (.task y t)
        { (s.channel y).run k with tasks := Function.update (s.channel y).tasks t ks }

  | run {t : Thread} {choice : Choice} {i : Instr} {f : Frame} :
      next g s t choice (s.frame t) = some (i, f) →
      ChannelStep g s y (.run t choice) ((s.exec t i).channel y)

theorem Step.onChannel {g : Gateway} {a : Action} {s s' : State} (h : Step g s a s')
    (y : ChannelId) : ChannelStep g s y a (s'.channel y) := by
  have own : ∀ x k, (∀ t choice, a ≠ .run t choice) →
      (y = x → ChannelStep g s y a (k (s.channel y))) →
      ChannelStep g s y a ((s.update x k).channel y) := by
    intro x k ha hx
    rw [State.update_channel]
    split_ifs with hy
    · exact hx hy
    · exact .still ha
  cases h with
  | @read x p hf _ =>
    refine own x (fun c => c.receive g p) nofun ?_
    rintro rfl
    exact .read hf
  | inactive _ _ => exact own _ Channel.lose nofun fun _ => .event nofun nofun
  | readerIdle _ ho _ =>
    exact own _ (fun c => { c with lost := true }) nofun fun _ => .event nofun id
  | exceptionCaught _ | call _ => exact .still nofun
  | peerClose _ =>
    exact own _ (fun c => { c with isOpen := false }) nofun fun _ => .event nofun nofun
  | task hf hk =>
    refine own _ _ nofun ?_
    rintro rfl
    exact .task hf hk
  | run hn => exact .run hn

/-- The gateway with everything its environment and its scheduler may do. -/
def gateway (g : Gateway) : System State Action where
  init := State.init g
  step := State.step g

@[simp] theorem gateway_init (g : Gateway) : (gateway g).init = State.init g := rfl

@[simp] theorem gateway_step {g : Gateway} {a : Action} {s s' : State} :
    (gateway g).step a s = some s' ↔ Step g s a s' := step_iff

end ImProxy
