import ImProxy.Gateway.Frame

/-! # The state of the gateway and its atomic operations

The state is the registry of connection descriptors, the channels and the frame
of every thread. A handler acts on it only by the operations below; an operation
on a channel takes effect at once on the channel's own event loop and is posted
to that loop by every other thread.
-/

set_option autoImplicit false

namespace ImProxy

open Concurrent

structure State where
  connectionDescriptors : Map String Descriptor
  channel : ChannelId → Channel
  frame : Thread → Frame

/-- The operations of handlers on the state. -/
inductive Instr
  | skip
  | put (d : Descriptor)
  | remove (d : Descriptor)
  | write (y : ChannelId) (p : MqttMessage)
  | close (y : ChannelId)
  | attr (x : ChannelId) (a : Attribute)
  | pipeline (x : ChannelId) (p : Pipeline)
  | assignState (d : Descriptor) (st : ConnectionState)
  /-- `ctx.close()` at the end of `channelInactive`. -/
  | closeLost (x : ChannelId)

namespace State

def update (s : State) (x : ChannelId) (f : Channel → Channel) : State :=
  { s with channel := Function.update s.channel x (f (s.channel x)) }

def setFrame (s : State) (t : Thread) (f : Frame) : State :=
  { s with frame := Function.update s.frame t f }

@[simp] theorem update_connectionDescriptors (s : State) (x : ChannelId) (f : Channel → Channel) :
    (s.update x f).connectionDescriptors = s.connectionDescriptors := rfl

@[simp] theorem update_frame (s : State) (x : ChannelId) (f : Channel → Channel) :
    (s.update x f).frame = s.frame := rfl

theorem update_channel (s : State) (x y : ChannelId) (f : Channel → Channel) :
    (s.update x f).channel y = if y = x then f (s.channel y) else s.channel y := by
  simp only [update, Function.update_apply]
  split_ifs with h
  · rw [h]
  · rfl

@[simp] theorem update_channel_self (s : State) (x : ChannelId) (f : Channel → Channel) :
    (s.update x f).channel x = f (s.channel x) := by simp [update_channel]

theorem update_channel_of_ne (s : State) {x y : ChannelId} (f : Channel → Channel) (h : y ≠ x) :
    (s.update x f).channel y = s.channel y := by simp [update_channel, h]

@[simp] theorem setFrame_connectionDescriptors (s : State) (t : Thread) (f : Frame) :
    (s.setFrame t f).connectionDescriptors = s.connectionDescriptors := rfl

@[simp] theorem setFrame_channel (s : State) (t : Thread) (f : Frame) :
    (s.setFrame t f).channel = s.channel := rfl

theorem setFrame_frame (s : State) (t u : Thread) (f : Frame) :
    (s.setFrame t f).frame u = if u = t then f else s.frame u := by
  simp [setFrame, Function.update_apply]

@[simp] theorem setFrame_frame_self (s : State) (t : Thread) (f : Frame) :
    (s.setFrame t f).frame t = f := by simp [setFrame_frame]

theorem setFrame_frame_of_ne (s : State) {t u : Thread} (f : Frame) (h : u ≠ t) :
    (s.setFrame t f).frame u = s.frame u := by simp [setFrame_frame, h]

/-- The index of the inbound message an event loop is handling. -/
def request (s : State) : Thread → ℕ
  | .loop x => (s.channel x).received.length - 1
  | .server _ => 0

/-- A task for a channel runs at once on the channel's own event loop, else it is posted. -/
def issue (s : State) (t : Thread) (y : ChannelId) (k : Task) : State :=
  s.update y fun c => if t = .loop y then c.run k else c.post t k

def descriptorState (s : State) (d : Descriptor) : Option ConnectionState :=
  (s.channel d.channel).state? d.serial

/-- Execute an operation of a thread. -/
def exec (s : State) (t : Thread) : Instr → State
  | .skip => s
  | .put d => { s with connectionDescriptors := s.connectionDescriptors.put d.clientID d }
  | .remove d =>
    { s with connectionDescriptors := s.connectionDescriptors.removeIf d.clientID d.equals }
  | .write y p => s.issue t y (.write ⟨p, t, s.request t⟩)
  | .close y => s.issue t y .close
  | .attr x a => s.update x fun c => { c with attributes := c.attributes.set a }
  | .pipeline x p => s.update x fun c => { c with pipeline := p }
  | .assignState d st => s.update d.channel fun c => c.assign d.serial st
  | .closeLost x => s.update x fun c => { c with isOpen := false, lossHandled := true }

@[simp] theorem exec_frame (s : State) (t : Thread) (i : Instr) : (s.exec t i).frame = s.frame := by
  cases i <;> rfl

theorem exec_connectionDescriptors (s : State) (t : Thread) (i : Instr) :
    (s.exec t i).connectionDescriptors =
      match i with
      | .put d => s.connectionDescriptors.put d.clientID d
      | .remove d => s.connectionDescriptors.removeIf d.clientID d.equals
      | _ => s.connectionDescriptors := by
  cases i <;> rfl

/-! ### The fields of a channel after an operation -/

variable (s : State) (t u : Thread) (i : Instr) (y : ChannelId)

@[simp] theorem exec_received : ((s.exec t i).channel y).received = (s.channel y).received := by
  cases i <;> simp only [exec, issue, update_channel] <;> split_ifs <;>
    simp [Channel.post, Channel.assign]

@[simp] theorem exec_lost : ((s.exec t i).channel y).lost = (s.channel y).lost := by
  cases i <;> simp only [exec, issue, update_channel] <;> split_ifs <;>
    simp [Channel.post, Channel.assign]

@[simp] theorem exec_deregistered :
    ((s.exec t i).channel y).deregistered = (s.channel y).deregistered := by
  cases i <;> simp only [exec, issue, update_channel] <;> split_ifs <;>
    simp [Channel.post, Channel.assign]

theorem exec_lossHandled : ((s.exec t i).channel y).lossHandled =
    match i with
    | .closeLost x => if y = x then true else (s.channel y).lossHandled
    | _ => (s.channel y).lossHandled := by
  cases i <;> simp only [exec, issue, update_channel] <;> split_ifs <;>
    simp [Channel.post, Channel.assign]

theorem exec_attributes : ((s.exec t i).channel y).attributes =
    match i with
    | .attr x a => if y = x then (s.channel y).attributes.set a else (s.channel y).attributes
    | _ => (s.channel y).attributes := by
  cases i <;> simp only [exec, issue, update_channel] <;> split_ifs <;>
    simp [Channel.post, Channel.assign]

theorem exec_pipeline : ((s.exec t i).channel y).pipeline =
    match i with
    | .pipeline x p => if y = x then p else (s.channel y).pipeline
    | _ => (s.channel y).pipeline := by
  cases i <;> simp only [exec, issue, update_channel] <;> split_ifs <;>
    simp [Channel.post, Channel.assign]

theorem exec_descriptors : ((s.exec t i).channel y).descriptors =
    match i with
    | .assignState d st =>
      if y = d.channel then
        (s.channel y).descriptors.modify d.serial fun e => { e with state := st }
      else (s.channel y).descriptors
    | _ => (s.channel y).descriptors := by
  cases i <;> simp only [exec, issue, update_channel] <;> split_ifs <;>
    simp [Channel.post, Channel.assign]

theorem exec_isOpen : ((s.exec t i).channel y).isOpen =
    match i with
    | .close z => if y = z ∧ t = .loop z then false else (s.channel y).isOpen
    | .closeLost x => if y = x then false else (s.channel y).isOpen
    | _ => (s.channel y).isOpen := by
  cases i <;> simp only [exec, issue, update_channel] <;> split_ifs <;>
    simp_all [Channel.post, Channel.assign]

variable {s t i y} in
theorem isOpen_of_exec (h : ((s.exec t i).channel y).isOpen = true) :
    (s.channel y).isOpen = true := by
  rw [exec_isOpen] at h
  cases i with
  | close z =>
    simp only at h
    split_ifs at h
    exact h
  | closeLost z =>
    simp only at h
    split_ifs at h
    exact h
  | _ => exact h

theorem exec_sent : ((s.exec t i).channel y).sent =
    match i with
    | .write z p =>
      if y = z ∧ t = .loop z ∧ (s.channel y).isOpen then
        (s.channel y).sent ++ [⟨p, t, s.request t⟩]
      else (s.channel y).sent
    | _ => (s.channel y).sent := by
  cases i with
  | write z p =>
    simp only [exec, issue, update_channel]
    by_cases hy : y = z
    · subst hy
      by_cases ht : t = .loop y <;> simp [ht, Channel.post]
    · simp [hy]
  | _ =>
    simp only [exec, issue, update_channel]
    try split_ifs <;> simp [Channel.post, Channel.assign]

theorem exec_tasks : ((s.exec t i).channel y).tasks u =
    match i with
    | .write z p =>
      if y = z ∧ u = t ∧ t ≠ .loop z then
        (s.channel y).tasks u ++ [.write ⟨p, t, s.request t⟩]
      else (s.channel y).tasks u
    | .close z =>
      if y = z ∧ u = t ∧ t ≠ .loop z then (s.channel y).tasks u ++ [.close]
      else (s.channel y).tasks u
    | _ => (s.channel y).tasks u := by
  cases i <;> simp only [exec, issue, update_channel] <;> split_ifs <;>
    simp_all [Channel.post_tasks, Channel.assign]

end State

end ImProxy
