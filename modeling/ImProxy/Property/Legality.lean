import ImProxy.Gateway.Scenario
import ImProxy.Invariant.Flow

/-! # Legal packets

The gateway assembles its packets by hand, in a few places. Their headers, packet ids
and session flags are those of legal packets, except for the flags of an UNSUBACK. The
gateway addresses no topic: every PUBLISH it writes has an empty topic name.
-/

set_option autoImplicit false

namespace ImProxy

open Transition

variable {g : Gateway} {s s' : State} {t : Thread} {choice : Choice} {f f' : Frame}
  {x y : ChannelId} {a : Action} {c : Channel} {w : Write} {p : MqttMessage} {m : Inbound}
  {r r' : Option Inbound}

/-- The flag bits of a fixed header as the encoder writes them. -/
def MqttFixedHeader.flags (h : MqttFixedHeader) : ℕ :=
  (if h.isDup then 8 else 0) + 2 * h.qosLevel.value + if h.isRetain then 1 else 0

def MqttFixedHeader.Plain (h : MqttFixedHeader) (messageType : MqttMessageType) : Prop :=
  h.messageType = messageType ∧ h.flags = 0

/-- A legal packet, written while a request is handled, if any is. -/
def MqttMessage.Legal (p : MqttMessage) (request : Option Inbound) : Prop :=
  match p.body with
  | .connAck returnCode sessionPresent => p.fixedHeader.Plain .connAck ∧
      (returnCode ≠ .connectionAccepted → sessionPresent = false)
  | .publish topicName _ _ => p.fixedHeader.messageType = .publish ∧ topicName ≠ "" ∧
      '+' ∉ topicName.toList ∧ '#' ∉ topicName.toList
  | .pubAck _ => p.fixedHeader.Plain .pubAck
  | .subAck messageId _ => p.fixedHeader.Plain .subAck ∧
      ∃ msg, request = some (.subscribe msg) ∧ msg.messageId = messageId
  | .unsubAck messageId => p.fixedHeader.Plain .unsubAck ∧
      ∃ msg, request = some (.unsubscribe msg) ∧ msg.messageId = messageId
  | .empty => p.fixedHeader.Plain .pingResp

/-- A packet as the gateway assembles it: legal, but that nothing is said of the flags of an
UNSUBACK and that the topic name of a PUBLISH is empty. -/
def MqttMessage.Assembled (p : MqttMessage) (request : Option Inbound) : Prop :=
  match p.body with
  | .connAck returnCode sessionPresent => p.fixedHeader.Plain .connAck ∧
      (returnCode ≠ .connectionAccepted → sessionPresent = false)
  | .publish topicName _ _ => p.fixedHeader.messageType = .publish ∧ topicName = ""
  | .pubAck _ => p.fixedHeader.Plain .pubAck
  | .subAck messageId _ => p.fixedHeader.Plain .subAck ∧
      ∃ msg, request = some (.subscribe msg) ∧ msg.messageId = messageId
  | .unsubAck messageId => p.fixedHeader.messageType = .unsubAck ∧
      ∃ msg, request = some (.unsubscribe msg) ∧ msg.messageId = messageId
  | .empty => p.fixedHeader.Plain .pingResp

def State.requestOf (s : State) (w : Write) : Option Inbound :=
  match w.source with
  | .loop x => (s.channel x).received[w.request]?
  | .server _ => none

/-! ## The places where packets are assembled -/

/-- The packet that answers a message on its own channel at once. -/
def Inbound.reply : Inbound → Option MqttMessage
  | .subscribe msg => some (doAckMessageFromValidateFilters (doVerify msg) msg.messageId)
  | .unsubscribe msg => some ⟨fixedHeader .unsubAck .atLeastOnce, .unsubAck msg.messageId⟩
  | .pingReq => some pingResp
  | _ => none

/-- The packets of the gateway, with the request that a thread is handling. -/
inductive Emits (g : Gateway) : Option Inbound → MqttMessage → Prop

  | reply {m : Inbound} {p : MqttMessage} : m.reply = some p → Emits g (some m) p

  | refusal {r : Option Inbound} (code : MqttConnectReturnCode) : Emits g r (connAck code false)

  | accepted {r : Option Inbound} (sessionPresent : Bool) :
      Emits g r (connAck .connectionAccepted sessionPresent)

  | pubAck {r : Option Inbound} : Emits g r (pubAck 1)

  | push {r : Option Inbound} (content : String) : Emits g r (pushMessage g content)

  | beExited {r : Option Inbound} : Emits g r (beExited g)

theorem Emits.mono (h : Emits g r p) (hr : ∀ m, r = some m → r' = some m) : Emits g r' p := by
  cases h with
  | reply hm => exact hr _ rfl ▸ .reply hm
  | refusal code => exact .refusal code
  | accepted b => exact .accepted b
  | pubAck => exact .pubAck
  | push content => exact .push content
  | beExited => exact .beExited

theorem assembled_reply (h : m.reply = some p) : p.Assembled (some m) := by
  cases m with
  | subscribe msg =>
    cases h
    exact ⟨⟨rfl, rfl⟩, msg, rfl, rfl⟩
  | unsubscribe msg =>
    cases h
    exact ⟨rfl, msg, rfl, rfl⟩
  | pingReq =>
    cases h
    exact ⟨rfl, rfl⟩
  | _ => cases h

theorem Emits.assembled (h : Emits g r p) : p.Assembled r := by
  cases h with
  | reply hm => exact assembled_reply hm
  | refusal code => exact ⟨⟨rfl, rfl⟩, fun _ => rfl⟩
  | accepted b => exact ⟨⟨rfl, rfl⟩, fun h => absurd rfl h⟩
  | pubAck => exact ⟨rfl, rfl⟩
  | push content => exact ⟨rfl, rfl⟩
  | beExited => exact ⟨rfl, rfl⟩

/-- Which packets of the gateway are legal: all but a PUBLISH and the reply to an
UNSUBSCRIBE. -/
theorem Emits.legal_iff (h : Emits g r p) :
    p.Legal r ↔ p.isPublish = false ∧ ∀ messageId, p.body ≠ .unsubAck messageId := by
  constructor
  · intro hp
    cases h with
    | @reply m p hm =>
      cases m with
      | unsubscribe msg =>
        cases hm
        exact absurd (show 2 = 0 from hp.1.2) (by decide)
      | subscribe msg =>
        cases hm
        exact ⟨rfl, fun _ => nofun⟩
      | pingReq =>
        cases hm
        exact ⟨rfl, fun _ => nofun⟩
      | _ => cases hm
    | push content => exact absurd rfl hp.2.1
    | beExited => exact absurd rfl hp.2.1
    | _ => exact ⟨rfl, fun _ => nofun⟩
  · rintro ⟨hp, hu⟩
    have ha := h.assembled
    obtain ⟨header, body⟩ := p
    cases body with
    | publish topicName packetId payload => cases hp
    | unsubAck messageId => exact absurd rfl (hu messageId)
    | _ => exact ha

/-! ## The frames that write them -/

def Replies (c : Channel) : Frame → Prop
  | .reply _ p => ∃ m, c.received.getLast? = some m ∧ m.reply = some p
  | _ => True

theorem Frame.Loses.replies (h : f.Loses x) : Replies c f := by cases h <;> trivial

theorem replies_read (m : Inbound) : Replies (c.receive g m) (channelRead g x c m) := by
  have hl : (c.receive g m).received.getLast? = some m := by simp [Channel.receive]
  cases m with
  | connect msg => simp only [channelRead, processConnect]; split <;> trivial
  | publish msg => simp only [channelRead, processPublish]; split <;> trivial
  | disconnect => simp only [channelRead, processDisconnect]; split <;> trivial
  | subscribe msg => exact ⟨_, hl, rfl⟩
  | unsubscribe msg => exact ⟨_, hl, rfl⟩
  | pingReq => exact ⟨_, hl, rfl⟩
  | _ => trivial

theorem replies_local_invariant : LocalInvariant g System.always x Replies where
  tasks {c f} ts h := by cases f <;> exact h
  init := trivial
  read m _ _ _ _ := replies_read m
  lose _ := (channelInactive_loses ..).replies
  readerIdle _ _ := (channelInactive_loses ..).replies
  exceptionCaught _ := trivial
  peerClose _ := trivial
  task _ _ _ _ _ _ _ := trivial
  run {s choice i f} _ _ _ hn _ := by
    generalize s.frame (.loop x) = f₀ at hn
    cases next_statement hn <;> trivial

theorem next_emits (ho : f.Of t)
    (hh : ∀ x, t = .loop x → Handles g (s.channel x) f ∧ Replies (s.channel x) f)
    (h : next g s t choice f = some (.write y p, f')) :
    Emits g (s.requestOf ⟨p, t, s.request t⟩) p := by
  cases next_statement h with
  | reply =>
    cases t with
    | server n => exact ho.elim
    | loop x =>
      obtain ⟨m, hm, hp⟩ := (hh x rfl).2
      have hr : s.requestOf ⟨p, .loop x, s.request (.loop x)⟩ = some m :=
        List.getLast?_eq_getElem?.symm.trans hm
      exact hr ▸ .reply hp
  | refuse =>
    cases t with
    | server n => exact ho.elim
    | loop x =>
      obtain ⟨msg, code, -, -, rfl⟩ := (hh x rfl).1
      exact .refusal code
  | connAck => exact .accepted _
  | pubAck => exact .pubAck
  | push => exact .push _
  | evictWrite => exact .beExited
  | messageWrite => exact .beExited

theorem writes_emits (hr : (gateway g).Reachable s) (hw : s.writes g a y = some w) :
    Emits g (s.requestOf w) w.packet := by
  have ha : w ∈ s.adds g a w.source y := by simp [State.adds, hw]
  obtain ⟨choice, p, f, rfl, hn, he⟩ := mem_adds.mp ha
  rw [he]
  refine next_emits (reachable_owned hr _) (fun x hx => ?_) hn
  rw [hx]
  exact ⟨reachable_handles hr x, replies_local_invariant.reachable hr⟩

theorem requestOf_step (h : Step g s a s') (hm : s.requestOf w = some m) :
    s'.requestOf w = some m := by
  unfold State.requestOf at hm ⊢
  cases hs : w.source with
  | server n => simp [hs] at hm
  | loop x =>
    simp only [hs] at hm ⊢
    exact received_getElem? h hm

theorem reachable_emits (h : (gateway g).Reachable s) :
    ∀ y t, ∀ w ∈ (s.channel y).flow t, Emits g (s.requestOf w) w.packet := by
  refine System.Reachable.invariant
    (P := fun s => ∀ y t, ∀ w ∈ (s.channel y).flow t, Emits g (s.requestOf w) w.packet) h
    (fun y t w hw => by simp [State.init, Channel.init, Channel.flow] at hw) ?_
  intro a s s' hr hs ht y t w hw
  have hst := gateway_step.mp ht
  have old : Emits g (s.requestOf w) w.packet := by
    rcases mem_flow_step (reachable_registry hr) hst hw with hw | hw
    · exact hs y t w hw
    · exact writes_emits hr (Option.mem_toList.mp (List.mem_filter.mp hw).1)
  exact old.mono fun m hm => requestOf_step hst hm

/-! ## The property -/

/-- Every packet that a step writes, and every packet on a channel or on its way to one, is
assembled for the request of its writer. -/
theorem packets_assembled (h : (gateway g).Reachable s) :
    (∀ a y w, s.writes g a y = some w → w.packet.Assembled (s.requestOf w)) ∧
      ∀ y t, ∀ w ∈ (s.channel y).flow t, w.packet.Assembled (s.requestOf w) :=
  ⟨fun _ _ _ hw => (writes_emits h hw).assembled,
    fun y t w hw => (reachable_emits h y t w hw).assembled⟩

def pushToOne : List Action :=
  join 0 "a" ++ [.call 0 (.pushMsg2All "hello"), .run (.server 0) .proceed,
    .run (.server 0) (.fetch "a"), .run (.server 0) .proceed, .run (.server 0) .proceed,
    .run (.server 0) .proceed, .run (.server 0) .proceed]

theorem packets_assembled_push :
    (pushMessage ascii "hello").Assembled none ∧
      ∀ w ∈ ((after pushToOne).channel 0).sent,
        w.packet.Assembled ((after pushToOne).requestOf w) := by
  have hr : (gateway ascii).Reachable (after pushToOne) := reachable_after (by decide)
  constructor
  · exact (packets_assembled hr).1 (.run (.server 0) .proceed) 0
      ⟨pushMessage ascii "hello", .server 0, 0⟩ (by decide)
  · intro w hw
    exact (packets_assembled hr).2 0 _ w (mem_flow_of_sent hw)

theorem push_not_legal : ∃ w, (gateway ascii).Reachable (after pushToOne) ∧
    (after pushToOne).writes ascii (.run (.server 0) .proceed) 0 = some w ∧
      ¬ w.packet.Legal ((after pushToOne).requestOf w) := by
  refine ⟨⟨pushMessage ascii "hello", .server 0, 0⟩, reachable_after (by decide), by decide, ?_⟩
  exact fun h => h.2.1 rfl

end ImProxy
