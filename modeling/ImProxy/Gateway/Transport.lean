import ImProxy.Gateway.Step
import ImProxy.Lexical.Stream

/-! # The inbound pipelines of the two transports

The bytes of a TCP connection go to the MQTT decoder as they are read. On a
WebSocket connection they come in frames, of which a handler unwraps the binary
ones and passes everything else on. What reaches the message handler and is not an
MQTT message fails its cast.
-/

set_option autoImplicit false

namespace ImProxy

open Lexical

/-- What travels up the pipeline of a channel. -/
inductive PipelineObject
  | byteBuf (content : List UInt8)
  | binaryWebSocketFrame (isFinalFragment : Bool) (content : List UInt8)
  | continuationWebSocketFrame (isFinalFragment : Bool) (content : List UInt8)
  | mqttMessage (msg : Inbound)
  deriving DecidableEq

/-- `MqttDecoder`, with the bytes it keeps for the next call. -/
abbrev MqttDecoder (σ : Type*) := StreamDecoder σ UInt8 Inbound

variable {σ : Type*}

/-- `WebSocketFrameToByteBufDecoder`, a decoder of binary frames only. -/
def webSocketFrameToByteBufDecoder : PipelineObject → List PipelineObject
  | .binaryWebSocketFrame _ content => [.byteBuf content]
  | o => [o]

/-- What the MQTT decoder hands on for the objects it is given. -/
def MqttDecoder.read (D : MqttDecoder σ) : σ → List PipelineObject → List PipelineObject
  | _, [] => []
  | s, .byteBuf content :: os =>
    (D.feed s content).1.map .mqttMessage ++ MqttDecoder.read D (D.feed s content).2 os
  | s, o :: os => o :: MqttDecoder.read D s os

/-- `initializeTCPTransport`: the bytes as they are read. -/
def tcpTransport (D : MqttDecoder σ) (chunks : List (List UInt8)) : List PipelineObject :=
  D.read D.init (chunks.map .byteBuf)

/-- `initializeWebSocketTransport`: the data frames one by one. -/
def webSocketTransport (D : MqttDecoder σ) (frames : List PipelineObject) :
    List PipelineObject :=
  D.read D.init (frames.flatMap webSocketFrameToByteBufDecoder)

/-- What `GateWayMessageHandler.channelRead` does with an object. The cast stands before the
try, so its exception goes to `exceptionCaught`. -/
def PipelineObject.action (x : ChannelId) : PipelineObject → Action
  | .mqttMessage msg => .read x msg
  | _ => .exceptionCaught x

/-! ## Frames of a peer -/

def continuationFrames : List (List UInt8) → List PipelineObject
  | [] => []
  | c :: cs => .continuationWebSocketFrame cs.isEmpty c :: continuationFrames cs

/-- The frames of one binary message with these fragments. -/
def binaryMessage : List (List UInt8) → List PipelineObject
  | [] => []
  | c :: cs => .binaryWebSocketFrame cs.isEmpty c :: continuationFrames cs

def PipelineObject.bytes : PipelineObject → List UInt8
  | .byteBuf content => content
  | _ => []

end ImProxy
