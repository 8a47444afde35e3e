import ImProxy.Client.Decoding
import ImProxy.Client.Encoding

/-! # The wire format of the client

The client encodes a message with well-formed texts and small numbers as the control packet
that says the same, and a PUBLISH of one client is read by another one as it was, with its
payload as bytes.
-/

set_option autoImplicit false

namespace ImProxy

open Client Lexical Lexical.Buffer Mqtt

variable {m : WireMessage}

theorem encode_of_packet {r : Except Thrown ControlPacket} (h : m.packet = some r)
    (hs : ∀ p, r = .ok p → p.Sized) : m.encode = r.map ControlPacket.bytes := by
  cases m with
  | connect o => exact encode_connect o h hs
  | publish i p => exact encode_publish i p h hs
  | subscribe i topics requestedQos => exact encode_subscribe i topics requestedQos h hs
  | unsubscribe i topics => exact encode_unsubscribe i topics h hs
  | pubAck i =>
    cases h
    have hf : ((4 : ℕ) &&& 0x0f) <<< 4 = 0x40 := by decide
    exact encode_short rfl Writes.nil Writes.nil hf.symm rfl
  | pubRec i =>
    cases h
    have hf : ((5 : ℕ) &&& 0x0f) <<< 4 = 0x50 := by decide
    exact encode_short rfl Writes.nil Writes.nil hf.symm rfl
  | pubRel i =>
    cases h
    have hf : ((6 : ℕ) &&& 0x0f) <<< 4 ||| 0x02 = 0x62 := by decide
    exact encode_short rfl Writes.nil Writes.nil hf.symm rfl
  | pubComp i =>
    cases h
    have hf : ((7 : ℕ) &&& 0x0f) <<< 4 = 0x70 := by decide
    exact encode_short rfl Writes.nil Writes.nil hf.symm rfl
  | bare type =>
    rw [WireMessage.packet] at h
    split_ifs at h with h₁ h₂
    · cases h
      subst h₁
      exact encode_short rfl Writes.nil Writes.nil (by decide) rfl
    · cases h
      subst h₂
      exact encode_short rfl Writes.nil Writes.nil (by decide) rfl
  | connAck sessionPresent returnCode => cases h
  | subAck i returnCode => cases h
  | unsubAck i => cases h

/-- The client encodes a message as the packet that says the same. -/
theorem encode_packet {p : ControlPacket} (h : Sends m p) (hs : p.Sized) :
    m.encode = .ok p.bytes :=
  encode_of_packet h.packet (by rintro _ ⟨⟩; exact hs)

theorem encode_packet_connect :
    (WireMessage.connect ⟨.mqtt311, [0x63], some ⟨.text [0x41], [0x77], 1, true, false⟩,
        some [0xE9], some [0x70], true, 60⟩).encode =
      .ok (ControlPacket.connect ⟨[0x4d, 0x51, 0x54, 0x54], 4, true, 60, [0x63],
        some ⟨[0x77], [0x41], 1, true⟩, some [0xC3, 0xA9], some [0x70]⟩).bytes :=
  encode_packet (.connect ⟨rfl, rfl, rfl, rfl, by decide, ⟨⟨['c'], rfl, rfl⟩, by decide⟩,
    .some ⟨⟨⟨['w'], rfl, rfl⟩, by decide⟩, ⟨['A'], rfl, rfl⟩, by simp, by decide, rfl, rfl⟩,
    .some ⟨⟨['\u00e9'], rfl, rfl⟩, by decide⟩, .some ⟨⟨['p'], rfl, rfl⟩, by decide⟩⟩) (by decide)

/-- A PUBLISH goes through the wire: whatever stands before and behind it there, it is read with
its topic, identifier and flags, and with the bytes of its payload. -/
theorem publish_roundtrip {payload : Payload} {bytes : List UInt8} {topic : List Char}
    {qos : Fin 3} {retained duplicate : Bool} {id : Option ℕ}
    (hp : payload.payloadBytes = .ok bytes) (ht : (Utf8.encode topic).length < 65536)
    (hi : ∀ i, id = some i → i < 65536) (hq : id.isSome ↔ 0 < qos.val)
    (hs : (Utf8.encode topic).length + bytes.length + 4 < 128 ^ 4) :
    ∃ wire, (WireMessage.publish (id.map some)
        ⟨payload, Utf16.encode topic, qos, retained, duplicate⟩).encode = .ok wire ∧
      ∀ as bs, decodeMessage (as ++ (wire ++ bs)) as.length =
        .ok (some (.publish (id.map some)
          ⟨.bytes bytes, Utf16.encode topic, qos, retained, duplicate⟩),
          some (as.length + wire.length)) := by
  have hid : (id.map some).map (fun i : Number => i.getD 0) = id := by
    cases id <;> rfl
  have hpacket : (WireMessage.publish (id.map some)
      ⟨payload, Utf16.encode topic, qos, retained, duplicate⟩).packet =
      some (.ok (.publish ⟨duplicate, qos, retained, Utf8.encode topic, id, bytes⟩)) := by
    have htopic : textBytes (Utf16.encode topic) = .ok (Utf8.encode topic) :=
      payloadBytes_encode topic
    rw [WireMessage.packet, hp, htopic, hid]
    rfl
  have hsized : (ControlPacket.publish
      ⟨duplicate, qos, retained, Utf8.encode topic, id, bytes⟩).Sized := by
    have hl : (id.elim [] uint16).length ≤ 2 := by
      cases id with
      | none => exact Nat.zero_le _
      | some i => exact Nat.le_refl _
    simp only [ControlPacket.Sized, ControlPacket.body, Publish.body, List.length_append,
      length_field]
    omega
  refine ⟨_, encode_publish _ _ hpacket (by rintro p ⟨⟩; exact hsized), fun as bs => ?_⟩
  exact decodeMessage_bytes (.publish ht hi hq) hsized as bs

theorem publish_roundtrip_latin :
    ∃ wire, (WireMessage.publish ((some 7).map some)
        ⟨.text [0xE9], Utf16.encode ['t'], 1, false, false⟩).encode = .ok wire ∧
      ∀ as bs, decodeMessage (as ++ (wire ++ bs)) as.length =
        .ok (some (.publish ((some 7).map some)
          ⟨.bytes [0xC3, 0xA9], Utf16.encode ['t'], 1, false, false⟩),
          some (as.length + wire.length)) :=
  publish_roundtrip (by decide) (by decide) (by rintro i ⟨⟩; decide) (by decide) (by decide)

end ImProxy
