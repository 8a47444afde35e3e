import ImProxy.Gateway.Statement

/-! # What a thread may touch

The frames of an event loop belong to its channel, and the frames of API callers
to no channel. A handler registers and unregisters descriptors of its own channel
only, and sets the attributes and the pipeline of its own channel only. What it
writes to or closes is its own channel or one whose descriptor it holds.
-/

set_option autoImplicit false

namespace ImProxy

open Concurrent Transition

variable {g : Gateway} {s s' : State} {t u : Thread} {choice : Choice} {f f' : Frame} {i : Instr}
  {x y : ChannelId} {a : Action}

def DisconnectLine.Of (x : ChannelId) : DisconnectLine → Prop
  | .get _ => True
  | .abortOther existing => existing.channel ≠ x
  | .abort existing => existing.channel = x
  | .remove existing => existing.channel = x

def Frame.Of : Thread → Frame → Prop
  | _, .idle => True
  | .loop x, .reply y _ => y = x
  | .loop x, .refuse y _ => y = x
  | .loop x, .close y => y = x
  | .loop x, .connect msg d _ => d.channel = x ∧ d.clientID = msg.clientId
  | .loop x, .pubAck y _ _ _ => y = x
  | .loop _, .push _ _ filtered _ => filtered = true
  | .loop x, .disconnect y l => y = x ∧ l.Of x
  | .loop x, .connectionLost y _ => y = x
  | .loop x, .inactiveClose y => y = x
  | .server _, .push _ clientId filtered _ => clientId = none ∧ filtered = false
  | .server _, .notifyAll _ => True
  | .server _, .closeWithMessage _ => True
  | .server _, .closeConnection _ => True
  | _, _ => False

theorem Frame.Of.connect {msg : MqttConnectMessage} {d : Descriptor} {l : ConnectLine}
    (h : (Frame.connect msg d l).Of t) : t = .loop d.channel ∧ d.clientID = msg.clientId := by
  cases t with
  | loop x => exact ⟨congrArg Thread.loop (Eq.symm h.1), h.2⟩
  | server n => exact h.elim

/-- The operations a thread can execute on the registry and on the own state of channels. -/
def Instr.Of : Thread → Instr → Prop
  | t, .put d => t = .loop d.channel
  | t, .remove d => t = .loop d.channel
  | t, .attr x _ => t = .loop x
  | t, .pipeline x _ => t = .loop x
  | t, .closeLost x => t = .loop x
  | .loop x, .assignState d _ => d.channel = x
  | _, _ => True

@[simp] theorem Instr.put_of {d : Descriptor} :
    (Instr.put d).Of t ↔ t = .loop d.channel := by cases t <;> rfl

@[simp] theorem Instr.remove_of {d : Descriptor} :
    (Instr.remove d).Of t ↔ t = .loop d.channel := by cases t <;> rfl

@[simp] theorem Instr.attr_of {b : Attribute} : (Instr.attr x b).Of t ↔ t = .loop x := by
  cases t <;> rfl

@[simp] theorem Instr.pipeline_of {p : Pipeline} : (Instr.pipeline x p).Of t ↔ t = .loop x := by
  cases t <;> rfl

@[simp] theorem Instr.closeLost_of : (Instr.closeLost x).Of t ↔ t = .loop x := by
  cases t <;> rfl

theorem next_of (hf : f.Of t) (h : next g s t choice f = some (i, f')) : i.Of t ∧ f'.Of t := by
  cases t with
  | loop x =>
    cases next_statement h <;>
      simp_all [Instr.Of, Frame.Of, DisconnectLine.Of, thrown, pushReceived]
  | server n =>
    cases next_statement h <;> simp_all [Instr.Of, Frame.Of]

theorem Frame.Begins.of (h : f.Begins x) : f.Of (.loop x) := by
  cases h <;> simp [Frame.Of, DisconnectLine.Of, newDescriptor]

theorem Frame.Loses.of (h : f.Loses x) : f.Of (.loop x) := by
  cases h <;> rfl

def Owned (s : State) : Prop := ∀ t, (s.frame t).Of t

theorem owned_setFrame (hs : Owned s) (hf : f.Of t) : Owned (s.setFrame t f) := by
  intro u
  rw [State.setFrame_frame]
  split_ifs with hu
  · exact hu ▸ hf
  · exact hs u

theorem Owned.step (hs : Owned s) (h : Step g s a s') : Owned s' := by
  cases h with
  | read _ _ => exact owned_setFrame (s := s.update _ _) hs (channelRead_begins ..).of
  | inactive _ _ => exact owned_setFrame (s := s.update _ _) hs (channelInactive_loses ..).of
  | readerIdle _ _ _ => exact owned_setFrame (s := s.update _ _) hs (channelInactive_loses ..).of
  | exceptionCaught _ => exact owned_setFrame hs rfl
  | peerClose _ => exact hs
  | @call n c _ => exact owned_setFrame hs (by cases c <;> simp [Call.frame, Frame.Of])
  | task _ _ => exact hs
  | @run t _ i f hn =>
    refine owned_setFrame (fun u => ?_) (next_of (hs t) hn).2
    rw [State.exec_frame]
    exact hs u

/-- Every thread is in a frame of its own in every reachable state. -/
theorem reachable_owned (h : (gateway g).Reachable s) : Owned s :=
  h.invariant (fun t => by cases t <;> trivial)
    fun _ _ _ _ hs ht => hs.step (gateway_step.mp ht)

end ImProxy
