import ImProxy.Gateway.Scenario
import ImProxy.Invariant.Order

/-! # Acknowledgements

Every PUBLISH of a registered client is answered with a PUBACK for packet id 1,
which goes to the channel that the registry holds under the sender's client id. Such
a PUBACK matches the PUBLISH if the sender is that channel and asked for QoS 1 with
packet id 1.
-/

set_option autoImplicit false

namespace ImProxy

open Concurrent Transition

variable {g : Gateway} {s s' : State} {t : Thread} {choice : Choice} {f f' : Frame} {i : Instr}
  {x y : ChannelId} {a : Action} {d : Descriptor} {c : Channel} {w : Write} {q : MqttMessage}

/-- The PUBACKs written on a channel answer QoS 1 PUBLISHes received on it, each a different
one, with its packet id. -/
structure AcksMatch (s : State) (y : ChannelId) : Prop where

  answer : ∀ w ∈ (s.channel y).sent, w.packet.isPubAck = true → w.source = .loop y ∧
    ∃ (msg : MqttPublishMessage) (id : ℕ),
      (s.channel y).received[w.request]? = some (.publish msg) ∧
      msg.qosLevel = .atLeastOnce ∧ msg.packetId = id ∧ w.packet = pubAck id

  once : ((s.channel y).sent.filter (·.packet.isPubAck)).Pairwise fun v w => v.request < w.request

/-- The PUBLISH and the descriptor for which a step of `sendMessage2Client` is about to write a
PUBACK, with the channel that received the PUBLISH. -/
def State.acknowledges (s : State) (a : Action) :
    Option (ChannelId × MqttPublishMessage × Descriptor) :=
  match s.executes a with
  | .pubAck x msg clientID .get =>
    (clientID.bind s.connectionDescriptors.get).map fun d => (x, msg, d)
  | _ => none

/-- The descriptor found under the sender's client id is that of the receiving channel, and the
PUBLISH asks for QoS 1 with packet id 1. -/
def AcksOwn : Condition State Action := fun s a =>
  ∀ r ∈ s.acknowledges a,
    r.2.2.channel = r.1 ∧ r.2.1.qosLevel = .atLeastOnce ∧ r.2.1.packetId = 1

instance (s : State) : DecidablePred (AcksOwn s) := fun a =>
  inferInstanceAs (Decidable (∀ r ∈ s.acknowledges a, _))

/-! ## Answers -/

def Frame.AcksOwn (x : ChannelId) : Frame → Prop
  | .pubAck _ msg _ (.write d) =>
    d.channel = x ∧ msg.qosLevel = .atLeastOnce ∧ msg.packetId = 1
  | _ => True

theorem Frame.Begins.acksOwn (h : f.Begins x) : f.AcksOwn y := by
  cases h <;> trivial

theorem Frame.Loses.acksOwn (h : f.Loses x) : f.AcksOwn y := by
  cases h <;> trivial

theorem acksOwn_local_invariant :
    LocalInvariant g ImProxy.AcksOwn x fun _ f => f.AcksOwn x where
  tasks _ h := h
  init := trivial
  read p _ _ _ _ := (channelRead_begins ..).acksOwn
  lose _ := (channelInactive_loses ..).acksOwn
  readerIdle _ _ := (channelInactive_loses ..).acksOwn
  exceptionCaught _ := trivial
  peerClose _ := trivial
  task _ _ _ _ _ _ _ := trivial
  run {s choice i f} _ hc hf hn _ := by
    simp only [ImProxy.AcksOwn, State.acknowledges, State.executes] at hc
    generalize s.frame (.loop x) = f₀ at hc hf hn
    cases next_statement hn with
    | @pubAckFound y msg c d hd =>
      cases (show y = x from hf)
      exact hc (x, msg, d) (by simp [hd])
    | _ => trivial

/-- PUBACKs are on their way only to the channel that wrote them, for a PUBLISH they match. -/
def AcksAnswer (s : State) : Prop :=
  ∀ y t, ∀ w ∈ (s.channel y).flow t, w.packet.isPubAck = true → t = .loop y ∧
    ∃ msg, (s.channel y).received[w.request]? = some (.publish msg) ∧
      msg.qosLevel = .atLeastOnce ∧ msg.packetId = 1 ∧ w.packet = pubAck 1

theorem next_pubAck (hr : (gateway g).Reachable s)
    (hn : next g s t choice (s.frame t) = some (.write y q, f)) (hq : q.isPubAck = true) :
    ∃ x msg clientID d, t = .loop x ∧ s.frame t = .pubAck x msg clientID (.write d) ∧
      y = d.channel ∧ q = pubAck 1 ∧ f = pushReceived g msg clientID := by
  have ho := reachable_owned hr t
  cases t with
  | server n =>
    generalize s.frame (.server n) = f₀ at hn ho
    cases next_statement hn with
    | messageWrite | push => cases hq
    | reply | refuse | evictWrite | connAck | pubAck => exact ho.elim
  | loop x =>
    have hh := reachable_handles hr x
    generalize s.frame (.loop x) = f₀ at hn ho hh ⊢
    cases next_statement hn with
    | reply => simp [hh.1.2.2] at hq
    | refuse =>
      obtain ⟨msg, code, -, -, rfl⟩ := hh
      cases hq
    | @pubAck z msg clientID d =>
      cases (show z = x from ho)
      exact ⟨x, msg, clientID, d, rfl, rfl, rfl, rfl, rfl⟩
    | evictWrite | connAck | push => cases hq
    | messageWrite => exact ho.elim

theorem AcksAnswer.step (hr : (gateway g).ReachableWhere AcksOwn s) (hs : AcksAnswer s)
    (h : Step g s a s') : AcksAnswer s' := by
  intro y t w hw hp
  rcases mem_flow_step (reachable_registry hr.reachable) h hw with hw | hw
  · exact (hs y t w hw hp).imp_right fun ⟨msg, hm, hmsg⟩ => ⟨msg, received_getElem? h hm, hmsg⟩
  · obtain ⟨choice, q, f, rfl, hn, rfl⟩ := mem_adds.mp hw
    obtain ⟨x, msg, clientID, d, rfl, hf, rfl, rfl, -⟩ := next_pubAck hr.reachable hn hp
    have hh := reachable_handles hr.reachable x
    have hown := acksOwn_local_invariant.reachable (x := x) hr
    rw [hf] at hh hown
    obtain ⟨rfl, hqos, hid⟩ := hown
    have hm := hh.1
    rw [List.getLast?_eq_getElem?] at hm
    exact ⟨rfl, msg, received_getElem? h hm, hqos, hid, rfl⟩

/-! ## Order -/

def Frame.isPubAck : Frame → Bool
  | .pubAck _ _ _ _ => true
  | _ => false

theorem Frame.Loses.isPubAck (h : f.Loses x) : f.isPubAck = false := by
  cases h <;> rfl

theorem pubAck_marks (g : Gateway) (x : ChannelId) :
    Marks g x MqttMessage.isPubAck fun _ f => f.isPubAck = false where
  inactive _ _ := (channelInactive_loses ..).isPubAck
  close _ := rfl
  next {s choice i f f'} y hf hn := by
    cases next_statement hn with
    | isConnected | pubAckFound => cases hf
    | _ => rfl
  write hr hn hq := by
    obtain ⟨_, _, _, _, -, -, -, -, rfl⟩ := next_pubAck hr hn hq
    rfl

theorem acks_inOrder (h : (gateway g).Reachable s) (y : ChannelId) :
    InOrder MqttMessage.isPubAck ((s.channel y).flow (.loop y)) :=
  h.invariant (P := fun s => InOrder MqttMessage.isPubAck ((s.channel y).flow (.loop y)))
    (by simp [InOrder, State.init, Channel.init, Channel.flow]) fun _ s _ hr hs ht =>
      (pubAck_marks g y).inOrder_step hr (fun _ _ _ hn hq => by
        obtain ⟨_, _, _, _, -, hf, -⟩ := next_pubAck hr hn hq
        simp [hf, Frame.isPubAck]) hs (gateway_step.mp ht)

/-! ## The property -/

/-- On runs whose PUBACKs are for the receiving channel and a PUBLISH with QoS 1 and packet
id 1, acknowledgements match publications. -/
theorem acks_match (h : (gateway g).ReachableWhere AcksOwn s) (y : ChannelId) :
    AcksMatch s y := by
  have hs : AcksAnswer s := h.invariant
    (fun y t w hw => by simp [State.init, Channel.init, Channel.flow] at hw)
    fun _ _ _ hr hs _ ht => hs.step hr (gateway_step.mp ht)
  have answer : ∀ w ∈ (s.channel y).sent, w.packet.isPubAck = true → w.source = .loop y ∧
      ∃ msg, (s.channel y).received[w.request]? = some (.publish msg) ∧
        msg.qosLevel = .atLeastOnce ∧ msg.packetId = 1 ∧ w.packet = pubAck 1 :=
    fun w hw hp => hs y w.source w (mem_flow_of_sent hw) hp
  refine ⟨fun w hw hp => ?_, ?_⟩
  · obtain ⟨hsrc, msg, hm, hqos, hid, he⟩ := answer w hw hp
    exact ⟨hsrc, msg, 1, hm, hqos, hid, he⟩
  · have he : (s.channel y).sent.filter (·.packet.isPubAck) =
        ((s.channel y).sent.filter (·.source = .loop y)).filter (·.packet.isPubAck) := by
      rw [List.filter_filter]
      refine List.filter_congr fun w hw => ?_
      cases hp : w.packet.isPubAck with
      | true => simp [(answer w hw hp).1]
      | false => rfl
    rw [he]
    exact (acks_inOrder h.reachable y).sublist (List.sublist_append_left _ _)

def publishOnce : List Action :=
  join 0 "a" ++ .read 0 (.publish (publishOf .atLeastOnce 1)) :: proceed 0 3

theorem acks_match_publishOnce :
    (((after publishOnce).channel 0).sent.filter (·.packet.isPubAck)).length = 1 ∧
      AcksMatch (after publishOnce) 0 :=
  ⟨by decide, acks_match (reachableWhere_after (by decide)) 0⟩

def publishUnacknowledged : List Action :=
  join 0 "a" ++ .read 0 (.publish (publishOf .atMostOnce 0)) :: proceed 0 3

theorem qos_zero_acknowledged : ∃ s,
    (gateway ascii).run publishUnacknowledged (.init ascii) = some s ∧ ¬AcksMatch s 0 := by
  refine ⟨after publishUnacknowledged, run_after (by decide), fun h => ?_⟩
  obtain ⟨-, msg, id, hm, hqos, -⟩ := h.answer ⟨pubAck 1, .loop 0, 1⟩ (by decide) (by decide)
  have hm' : ((after publishUnacknowledged).channel 0).received[1]? =
      some (.publish (publishOf .atMostOnce 0)) := by decide
  cases hm'.symm.trans hm
  cases hqos

end ImProxy
