import Mathlib.Data.Int.Notation
import Mathlib.Data.Nat.Notation

/-! # MQTT messages

The messages a channel delivers to the gateway and the packets the gateway
writes, with the fields that its handlers read or set. A string is an option
where the code tests it for null.
-/

set_option autoImplicit false

namespace ImProxy

inductive MqttQoS | atMostOnce | atLeastOnce | exactlyOnce | failure
  deriving DecidableEq, Repr

def MqttQoS.value : MqttQoS → ℕ
  | .atMostOnce => 0
  | .atLeastOnce => 1
  | .exactlyOnce => 2
  | .failure => 0x80

inductive MqttMessageType
  | connect | connAck | publish | pubAck | pubRec | pubRel | pubComp | subscribe | subAck
  | unsubscribe | unsubAck | pingReq | pingResp | disconnect
  deriving DecidableEq, Repr

inductive MqttConnectReturnCode
  | connectionAccepted
  | connectionRefusedUnacceptableProtocolVersion
  | connectionRefusedIdentifierRejected
  | connectionRefusedServerUnavailable
  | connectionRefusedBadUserNameOrPassword
  | connectionRefusedNotAuthorized
  deriving DecidableEq, Repr

/-- The protocol levels of MQTT 3.1 and MQTT 3.1.1. -/
inductive MqttVersion | mqtt31 | mqtt311

def MqttVersion.protocolLevel : MqttVersion → ℕ
  | .mqtt31 => 3
  | .mqtt311 => 4

/-- A buffer with an accessible backing array or without one. Byte `i` of the buffer is
byte `arrayOffset + i` of its memory. -/
structure ByteBuf where

  memory : List UInt8

  hasArray : Bool

  arrayOffset : ℕ

  readerIndex : ℕ

  readableBytes : ℕ

  inBounds : arrayOffset + readerIndex + readableBytes ≤ memory.length
  deriving DecidableEq

structure MqttConnectMessage where
  clientIdentifier : Option String
  version : ℕ
  isWillFlag : Bool
  willTopic : Option String
  willMessage : Option String
  userName : Option String
  isCleanSession : Bool
  keepAliveTimeSeconds : ℕ
  deriving DecidableEq, Repr

structure MqttPublishMessage where
  qosLevel : MqttQoS
  packetId : ℤ
  payload : ByteBuf
  deriving DecidableEq

structure MqttTopicSubscription where
  topicName : String
  qualityOfService : MqttQoS
  deriving DecidableEq, Repr

structure MqttSubscribeMessage where
  messageId : ℕ
  topicSubscriptions : List MqttTopicSubscription
  deriving DecidableEq, Repr

structure MqttUnsubscribeMessage where
  messageId : ℕ
  topics : List String
  deriving DecidableEq, Repr

/-- What the decoder of a channel hands to the gateway. -/
inductive Inbound
  | connect (msg : MqttConnectMessage)
  | subscribe (msg : MqttSubscribeMessage)
  | unsubscribe (msg : MqttUnsubscribeMessage)
  | publish (msg : MqttPublishMessage)
  | pubRec
  | pubComp
  | pubRel
  | disconnect
  | pubAck (messageId : ℕ)
  | pingReq
  /-- A type that only servers send; the dispatcher logs it. -/
  | unknown (messageType : MqttMessageType)
  /-- A decoder failure: a message without a fixed header. -/
  | malformed
  deriving DecidableEq

structure MqttFixedHeader where
  messageType : MqttMessageType
  isDup : Bool
  qosLevel : MqttQoS
  isRetain : Bool
  remainingLength : ℕ
  deriving DecidableEq, Repr

/-- The variable header and payload of a packet the gateway writes. -/
inductive PacketBody
  | connAck (returnCode : MqttConnectReturnCode) (sessionPresent : Bool)
  | publish (topicName : String) (packetId : ℤ) (payload : List UInt8)
  | pubAck (messageId : ℕ)
  | subAck (messageId : ℕ) (grantedQoSLevels : List ℕ)
  | unsubAck (messageId : ℕ)
  | empty
  deriving DecidableEq, Repr

structure MqttMessage where
  fixedHeader : MqttFixedHeader
  body : PacketBody
  deriving DecidableEq, Repr

namespace MqttMessage

def isConnAck (p : MqttMessage) : Bool :=
  match p.body with
  | .connAck _ _ => true
  | _ => false

/-- A CONNACK that accepts the connection. -/
def isAccepted (p : MqttMessage) : Bool :=
  match p.body with
  | .connAck .connectionAccepted _ => true
  | _ => false

def isPublish (p : MqttMessage) : Bool :=
  match p.body with
  | .publish _ _ _ => true
  | _ => false

def isPubAck (p : MqttMessage) : Bool :=
  match p.body with
  | .pubAck _ => true
  | _ => false

end MqttMessage

/-- A fixed header without dup and retain flag, as all builders of the gateway make it. -/
def fixedHeader (messageType : MqttMessageType) (qosLevel : MqttQoS) : MqttFixedHeader :=
  ⟨messageType, false, qosLevel, false, 0⟩

/-- `MqttMessageBuilders.publish()` with the topic, QoS and payload set and retain false. -/
def publishBuilder (topicName : String) (qos : MqttQoS) (payload : List UInt8) : MqttMessage :=
  ⟨fixedHeader .publish qos, .publish topicName 0 payload⟩

end ImProxy
