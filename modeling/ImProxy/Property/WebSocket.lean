import ImProxy.Gateway.Scenario
import ImProxy.Gateway.Transport

/-! # WebSocket connections and TCP connections

Binary messages of one frame bring their bytes to the MQTT decoder as a TCP
connection does, wherever the stream is cut. The continuation frames of a longer
message pass the decoders by and fail the cast of the message handler, which closes
the channel.
-/

set_option autoImplicit false

namespace ImProxy

open Lexical Transition

variable {σ : Type*} {D : MqttDecoder σ} {st : σ} {x : ChannelId} {g : Gateway} {s s' t : State}
  {messages : List (List (List UInt8))} {chunks cs : List (List UInt8)}
  {o : PipelineObject} {os : List PipelineObject}

/-- The frames of a peer that sends binary messages with these fragments. -/
def carried (messages : List (List (List UInt8))) : List PipelineObject :=
  messages.flatMap binaryMessage

/-- A stream that a peer carries in binary messages and that also arrives over TCP is the same
for the decoder and for the message handler, which neither throws nor closes the channel. -/
structure SameAsTcp (D : MqttDecoder σ) (x : ChannelId) (messages : List (List (List UInt8)))
    (chunks : List (List UInt8)) : Prop where

  bytes : ((carried messages).flatMap webSocketFrameToByteBufDecoder).flatMap
    PipelineObject.bytes = chunks.flatten

  handled : (webSocketTransport D (carried messages)).map (PipelineObject.action x) =
    (tcpTransport D chunks).map (PipelineObject.action x)

  quiet : ∀ a ∈ (webSocketTransport D (carried messages)).map (PipelineObject.action x),
    ∃ msg, a = .read x msg

theorem read_byteBufs (cs : List (List UInt8)) :
    D.read st (cs.map .byteBuf) = (D.feedAll st cs).1.map .mqttMessage := by
  induction cs generalizing st with
  | nil => rfl
  | cons c cs ih => rw [List.map_cons, MqttDecoder.read, ih, StreamDecoder.feedAll, List.map_append]

theorem mem_read (ho : o ∈ os) (hb : ∀ content, o ≠ .byteBuf content) : o ∈ D.read st os := by
  induction os generalizing st with
  | nil => cases ho
  | cons p os ih =>
    rcases List.mem_cons.mp ho with rfl | htail
    · cases o with
      | byteBuf content => exact absurd rfl (hb content)
      | _ => exact List.mem_cons_self
    · cases p with
      | byteBuf content => exact List.mem_append_right _ (ih htail)
      | _ => exact List.mem_cons_of_mem _ (ih htail)

/-- Messages of one frame are unwrapped to the bytes they carry. -/
theorem unwrap_carried (h : ∀ m ∈ messages, m.length = 1) :
    (carried messages).flatMap webSocketFrameToByteBufDecoder =
      messages.flatten.map .byteBuf := by
  induction messages with
  | nil => rfl
  | cons m ms ih =>
    obtain ⟨c, rfl⟩ := List.length_eq_one_iff.mp (h m List.mem_cons_self)
    have ih := ih fun m hm => h m (List.mem_cons_of_mem _ hm)
    rw [carried, List.flatMap_cons, List.flatMap_append]
    rw [carried] at ih
    rw [ih]
    rfl

theorem continuation_read {m : List (List UInt8)} (hm : m ∈ messages) (hl : 1 < m.length) :
    ∃ isFinal content, .continuationWebSocketFrame isFinal content ∈
      webSocketTransport D (carried messages) := by
  match m, hl with
  | _ :: c :: cs, _ =>
    refine ⟨cs.isEmpty, c, mem_read (List.mem_flatMap.mpr
      ⟨.continuationWebSocketFrame cs.isEmpty c, List.mem_flatMap.mpr ⟨_, hm, ?_⟩, ?_⟩) (by simp)⟩
    · simp [binaryMessage, continuationFrames]
    · simp [webSocketFrameToByteBufDecoder]

/-- A stream in binary messages is treated as over TCP exactly if no message is fragmented. -/
theorem webSocket_same_iff (hD : D.Streaming) (hm : ∀ m ∈ messages, m ≠ [])
    (hc : chunks.flatten = messages.flatten.flatten) :
    SameAsTcp D x messages chunks ↔ ∀ m ∈ messages, m.length = 1 := by
  constructor
  · intro h m hmem
    by_contra hl
    have hpos := List.length_pos_of_ne_nil (hm m hmem)
    obtain ⟨isFinal, content, ho⟩ := continuation_read (D := D) hmem (by omega)
    obtain ⟨msg, hmsg⟩ := h.quiet _ (List.mem_map_of_mem ho)
    cases hmsg
  · intro h
    have hw : webSocketTransport D (carried messages) =
        (D.feed D.init chunks.flatten).1.map .mqttMessage := by
      rw [webSocketTransport, unwrap_carried h, read_byteBufs, hD.feedAll_eq, hc]
    have ht : tcpTransport D chunks = (D.feed D.init chunks.flatten).1.map .mqttMessage := by
      rw [tcpTransport, read_byteBufs, hD.feedAll_eq]
    refine ⟨?_, by rw [hw, ht], ?_⟩
    · rw [unwrap_carried h, hc, List.flatMap_map, List.flatMap_def]
      exact congrArg List.flatten (List.map_id' _)
    · rw [hw, List.map_map]
      intro a ha
      obtain ⟨msg, -, rfl⟩ := List.mem_map.mp ha
      exact ⟨msg, rfl⟩

/-- An object that fails the cast closes the channel. -/
theorem exceptionCaught_closes (h : Step g s (.exceptionCaught x) s')
    (h' : Step g s' (.run (.loop x) .proceed) t) : (t.channel x).isOpen = false := by
  cases h with
  | exceptionCaught _ =>
    cases h' with
    | run hn =>
      rw [State.setFrame_frame_self] at hn
      cases hn
      simp [State.exec_isOpen]

/-- A decoder of PINGREQ and DISCONNECT, the packets of two bytes; any other packet is
malformed. -/
def twoByteDecoder : MqttDecoder (Option UInt8) :=
  StreamDecoder.ofStep none fun st b =>
    match st with
    | none => ([], some b)
    | some a =>
      (if a = 0xC0 ∧ b = 0 then [.pingReq]
        else if a = 0xE0 ∧ b = 0 then [.disconnect]
        else [.malformed], none)

theorem webSocket_same_threeFrames :
    SameAsTcp twoByteDecoder 0 [[[0xC0]], [[0x00, 0xE0]], [[0x00]]] [[0xC0, 0x00, 0xE0, 0x00]] ↔
      ∀ m ∈ [[[0xC0]], [[0x00, 0xE0]], [[(0x00 : UInt8)]]], m.length = 1 :=
  webSocket_same_iff (StreamDecoder.ofStep_streaming _ _) (by decide) (by decide)

theorem fragmented_pingReq_closes :
    (webSocketTransport twoByteDecoder (carried [[[0xC0], [0x00]]])).map
        (PipelineObject.action 0) = [.exceptionCaught 0] ∧
      (tcpTransport twoByteDecoder [[0xC0, 0x00]]).map (PipelineObject.action 0) =
        [.read 0 .pingReq] ∧
      ¬ SameAsTcp twoByteDecoder 0 [[[0xC0], [0x00]]] [[0xC0, 0x00]] ∧
      ∃ s, (gateway ascii).run [.exceptionCaught 0, .run (.loop 0) .proceed] (.init ascii) =
        some s ∧ (s.channel 0).isOpen = false := by
  refine ⟨rfl, rfl, fun h => ?_, _, run_after (by decide), by decide⟩
  exact absurd h.bytes (by decide)

end ImProxy
