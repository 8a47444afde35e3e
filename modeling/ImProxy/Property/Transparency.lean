import ImProxy.Gateway.Scenario
import ImProxy.Invariant.Flow
import ImProxy.Lexical.Utf8

/-! # Payloads of broadcasts

Both ways to read a buffer take its readable bytes. They are decoded to a string and
encoded again for every receiver, so with UTF-8 as the default charset a payload
arrives unchanged exactly if it is well-formed UTF-8.
-/

set_option autoImplicit false

namespace ImProxy

open Lexical Transition

variable {g : Gateway} {s : State} {x y : ChannelId} {a : Action} {w : Write}
  {msg : MqttPublishMessage}

/-- The bytes between the reader index and the writer index. -/
def ByteBuf.readable (buf : ByteBuf) : List UInt8 :=
  (buf.memory.drop (buf.arrayOffset + buf.readerIndex)).take buf.readableBytes

/-- The default charset is UTF-8, with a decoder that replaces malformed input. -/
structure Gateway.IsUtf8 (g : Gateway) : Prop where
  decode : ∀ bytes, g.decode bytes = String.ofList (Utf8.decode bytes)
  encode : ∀ s, g.encode s = Utf8.encode s.toList

theorem convertByteBufToString_eq (g : Gateway) (buf : ByteBuf) :
    convertByteBufToString g buf = g.decode buf.readable := by
  unfold convertByteBufToString ByteBuf.readable
  split_ifs
  · rfl
  · simp only [List.take_take, Nat.min_self]

theorem published_packet (hr : (gateway g).Reachable s)
    (hw : w ∈ s.adds g a (.loop x) y ∨ w ∈ (s.channel y).flow (.loop x))
    (hm : (s.channel x).received[w.request]? = some (.publish msg))
    (hp : w.packet.isPublish = true) :
    w.packet = pushMessage g (g.decode msg.payload.readable) := by
  have ha : Answers g (.publish msg) w.packet := by
    rcases hw with hw | hw
    · obtain ⟨-, m, -, hm', ha⟩ := adds_answers hr hw
      cases hm.symm.trans hm'
      exact ha
    · obtain ⟨m, hm', ha⟩ := reachable_answered hr x y w hw
      cases hm.symm.trans hm'
      exact ha
  rw [← convertByteBufToString_eq]
  refine ha.resolve_left fun h => ?_
  rw [h] at hp
  cases hp

/-- Every PUBLISH that the handler of a PUBLISH writes, and every one on its way, carries the
readable bytes of the payload exactly if these are well-formed UTF-8. -/
theorem payload_transparent_iff (hg : g.IsUtf8) (hr : (gateway g).Reachable s)
    (hw : w ∈ s.adds g a (.loop x) y ∨ w ∈ (s.channel y).flow (.loop x))
    (hm : (s.channel x).received[w.request]? = some (.publish msg))
    (hp : w.packet.isPublish = true) :
    (∃ topicName packetId, w.packet.body = .publish topicName packetId msg.payload.readable) ↔
      Utf8.WellFormed msg.payload.readable := by
  rw [← Utf8.encode_decode_iff, published_packet hr hw hm hp]
  simp only [pushMessage, publishBuilder, PacketBody.publish.injEq, hg.decode, hg.encode,
    String.toList_ofList]
  constructor
  · rintro ⟨_, _, -, -, h⟩; exact h
  · intro h; exact ⟨_, _, rfl, rfl, h⟩

def utf8 : Gateway where
  authenticate := ascii.authenticate
  decode bytes := String.ofList (Utf8.decode bytes)
  encode s := Utf8.encode s.toList
  transport := ascii.transport

/-- A PUBLISH whose payload lies behind two other bytes of a heap buffer. -/
def publishBytes (payload : List UInt8) : MqttPublishMessage where
  qosLevel := .atMostOnce
  packetId := 0
  payload := ⟨0x30 :: 0x00 :: payload, true, 1, 1, payload.length, by simp; omega⟩

def publishPayload (payload : List UInt8) : List Action :=
  join 0 "a" ++ join 1 "b" ++ .read 0 (.publish (publishBytes payload)) :: proceed 0 4 ++
    [.run (.loop 0) (.fetch "b")] ++ proceed 0 5

def published (payload : List UInt8) : State :=
  ((gateway utf8).run (publishPayload payload) (.init utf8)).getD (.init utf8)

theorem run_published {payload : List UInt8}
    (h : ((gateway utf8).run (publishPayload payload) (.init utf8)).isSome = true) :
    (gateway utf8).run (publishPayload payload) (.init utf8) = some (published payload) := by
  obtain ⟨s, hs⟩ := Option.isSome_iff_exists.mp h
  simp [published, hs]

theorem payload_transparent_latin :
    ⟨pushMessage utf8 "\u00e9", .loop 0, 1⟩ ∈
        ((published [0xC3, 0xA9]).channel 1).flow (.loop 0) ∧
      ((∃ topicName packetId, (pushMessage utf8 "\u00e9").body =
        .publish topicName packetId (publishBytes [0xC3, 0xA9]).payload.readable) ↔
        Utf8.WellFormed (publishBytes [0xC3, 0xA9]).payload.readable) :=
  ⟨by decide, payload_transparent_iff (w := ⟨pushMessage utf8 "\u00e9", .loop 0, 1⟩) (x := 0)
    (y := 1) (a := .inactive 0) (s := published [0xC3, 0xA9]) ⟨fun _ => rfl, fun _ => rfl⟩
    ⟨_, System.path_iff_run.mpr (run_published (by decide))⟩ (.inr (by decide)) (by decide) rfl⟩

theorem payload_replaced : ∃ s,
    (gateway utf8).run (publishPayload [0xFF]) (.init utf8) = some s ∧
      (s.channel 0).received[1]? = some (.publish (publishBytes [0xFF])) ∧
      ⟨publishBuilder "" .atMostOnce [0xEF, 0xBF, 0xBD], .loop 0, 1⟩ ∈
        (s.channel 1).flow (.loop 0) ∧
      (publishBytes [0xFF]).payload.readable = [0xFF] :=
  ⟨published [0xFF], run_published (by decide), by decide, by decide, by decide⟩

end ImProxy
