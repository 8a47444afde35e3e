import ImProxy.Client.Transcription
import ImProxy.Client.WireMessage
import ImProxy.Mqtt.ControlPacket

/-! # The client reads control packets

At the position where a packet starts the client reads the packet, whatever stands before
and behind it. A proper beginning of a packet at the end of the input is left for later.
-/

set_option autoImplicit false

namespace ImProxy.Client

open Lexical Mqtt

/-- The message that the client makes of a packet from a server. Its texts are well formed, and
its numbers fit into their bytes. -/
inductive Reads : ControlPacket → WireMessage → Prop

  | connAck {sessionPresent : Bool} {returnCode : UInt8} :
      Reads (.connAck sessionPresent returnCode) (.connAck sessionPresent returnCode.toNat)

  | publish {dup retain : Bool} {qos : Fin 3} {topicName : List Char} {packetId : Option ℕ}
      {payload : List UInt8} : (Utf8.encode topicName).length < 65536 →
      (∀ i, packetId = some i → i < 65536) → (packetId.isSome ↔ 0 < qos.val) →
      Reads (.publish ⟨dup, qos, retain, Utf8.encode topicName, packetId, payload⟩)
        (.publish (packetId.map some)
          ⟨.bytes payload, Utf16.encode topicName, qos, retain, dup⟩)

  | pubAck {i : ℕ} : i < 65536 → Reads (.pubAck i) (.pubAck (some i))

  | pubRec {i : ℕ} : i < 65536 → Reads (.pubRec i) (.pubRec (some i))

  | pubRel {i : ℕ} : i < 65536 → Reads (.pubRel i) (.pubRel (some i))

  | pubComp {i : ℕ} : i < 65536 → Reads (.pubComp i) (.pubComp (some i))

  | subAck {i : ℕ} {returnCodes : List UInt8} : i < 65536 →
      Reads (.subAck i returnCodes) (.subAck (some i) returnCodes)

  | unsubAck {flags : Fin 16} {i : ℕ} : i < 65536 →
      Reads (.unsubAck flags i) (.unsubAck (some i))

  | pingResp : Reads .pingResp (.bare MESSAGE_TYPE.PINGRESP)

variable {n k : ℕ} {as bs cs : List UInt8} {p : ControlPacket} {m : WireMessage}

/-! ### Numbers -/

theorem byteAt_append (as bs : List UInt8) (i : ℕ) :
    byteAt (as ++ bs) (some (as.length + i)) = bs[i]?.map UInt8.toNat := by
  rw [byteAt, Option.bind_eq_bind, Option.bind_some,
    List.getElem?_append_right (Nat.le_add_right _ _), Nat.add_sub_cancel_left]
  cases bs[i]? <;> rfl

theorem readUint16_append (h : n < 65536) (as bs : List UInt8) :
    readUint16 (as ++ (uint16 n ++ bs)) (some as.length) = some n := by
  have h₁ : byteAt (as ++ (uint16 n ++ bs)) (some as.length) = some (n / 256) := by
    have := byteAt_append as (uint16 n ++ bs) 0
    rw [Nat.add_zero] at this
    rw [this]
    change some (UInt8.ofNat (n / 256)).toNat = _
    rw [Utf8.toNat_ofNat_of_lt (by omega)]
  have h₂ : byteAt (as ++ (uint16 n ++ bs)) (some (as.length + 1)) = some (n % 256) := by
    rw [byteAt_append]
    change some (UInt8.ofNat n).toNat = _
    rw [UInt8.toNat_ofNat']
  rw [readUint16, h₁, Option.map_some, h₂]
  change some (256 * (n / 256) + n % 256) = some n
  rw [Nat.div_add_mod]

/-! ### The remaining length -/

theorem and_mask : ∀ b : ℕ, b < 256 → b &&& 0x7F = b % 128 ∧ (b &&& 0x80 ≠ 0 ↔ 128 ≤ b) := by
  decide +kernel

theorem remLengthFrom_of_some {l a : ℕ} (h : Varint.decode bs = some (n, l)) (hl : k + l ≤ 147) :
    remLengthFrom bs k (some a) = some (some (a + n * 128 ^ k), k + l) := by
  induction bs generalizing n l k a with
  | nil => cases h
  | cons b bs ih =>
    obtain ⟨hm, ht⟩ := and_mask b.toNat b.toNat_lt
    rw [Varint.decode] at h
    rw [remLengthFrom, hm]
    split_ifs at h with hb
    · cases h
      have hk : ¬ (147 ≤ k ∧ b.toNat = 0) := by omega
      simp only [Nat.mod_eq_of_lt hb, if_neg hk, if_neg (mt ht.mp (by omega : ¬ 128 ≤ b.toNat))]
      rfl
    · obtain ⟨⟨n', l'⟩, hd, hr⟩ := Option.map_eq_some_iff.mp h
      obtain ⟨rfl, rfl⟩ := Prod.mk.inj hr
      dsimp only at hl ⊢
      have hk : ¬ (147 ≤ k ∧ b.toNat % 128 = 0) := by omega
      simp only [if_neg hk, if_pos (ht.mpr (by omega : 128 ≤ b.toNat))]
      have hi := ih (k := k + 1) (a := a + b.toNat % 128 * 128 ^ k) hd (by omega)
      refine hi.trans ?_
      rw [Nat.pow_succ]
      congr 2
      · congr 1
        ring
      · omega

theorem remLengthFrom_of_none (h : Varint.decode bs = none) (r : Number) :
    remLengthFrom bs k r = none := by
  induction bs generalizing k r with
  | nil => rfl
  | cons b bs ih =>
    obtain ⟨hm, ht⟩ := and_mask b.toNat b.toNat_lt
    rw [Varint.decode] at h
    split_ifs at h with hb
    rw [remLengthFrom]
    simp only [if_pos (ht.mpr (by omega : 128 ≤ b.toNat))]
    exact ih (Option.map_eq_none_iff.mp h) _

/-! ### Bodies -/

theorem subarray_append (as bs cs : List UInt8) :
    subarray (as ++ (bs ++ cs)) (some as.length) (some (as.length + bs.length)) = bs := by
  rw [subarray, Option.getD_some, Option.getD_some, ← List.append_assoc, ← List.length_append,
    List.take_left, List.drop_left]

theorem info_publish (dup retain : Bool) (q : Fin 3) :
    (0x30 + bit dup 8 + q * 2 + bit retain 1) >>> 4 = 3 ∧
      (0x30 + bit dup 8 + q * 2 + bit retain 1) &&& 0x0f =
        bit dup 8 + q * 2 + bit retain 1 ∧
      (bit dup 8 + q * 2 + bit retain 1) >>> 1 &&& 0x03 = q ∧
      decide ((bit dup 8 + q * 2 + bit retain 1) &&& 0x01 = 0x01) = retain ∧
      decide ((bit dup 8 + q * 2 + bit retain 1) &&& 0x08 = 0x08) = dup := by
  cases dup <;> cases retain <;> revert q <;> decide

theorem readPublish_body {dup retain : Bool} {q : Fin 3} {t : List Char} {id : Option ℕ}
    {payload : List UInt8} (ht : (Utf8.encode t).length < 65536)
    (hi : ∀ i, id = some i → i < 65536) (hq : id.isSome ↔ 0 < q.val) (as bs : List UInt8) :
    readPublish (bit dup 8 + q * 2 + bit retain 1)
        (as ++ ((Publish.mk dup q retain (Utf8.encode t) id payload).body ++ bs)) as.length
        (some (as.length + (Publish.mk dup q retain (Utf8.encode t) id payload).body.length)) =
      .ok (.publish (id.map some) ⟨.bytes payload, Utf16.encode t, q, retain, dup⟩) := by
  obtain ⟨-, -, hqos, hret, hdup⟩ := info_publish dup retain q
  generalize hc : Utf8.encode t = c at ht ⊢
  generalize hin : as ++ ((Publish.mk dup q retain c id payload).body ++ bs) = input
  have hbody : as.length + (Publish.mk dup q retain c id payload).body.length =
      (as ++ (uint16 c.length ++ (c ++ id.elim [] uint16))).length + payload.length := by
    simp only [Publish.body, field, List.length_append]
    omega
  simp only [Publish.body, field, List.append_assoc] at hin
  have hlen : readUint16 input (some as.length) = some c.length := by
    rw [← hin, readUint16_append ht]
  have htopic : parseUTF8 input (as.length + 2) c.length = .ok (Utf16.encode t) := by
    have hp := parseUTF8_encode (as ++ uint16 c.length) (id.elim [] uint16 ++ (payload ++ bs)) t
    rw [hc, List.length_append, length_uint16, List.append_assoc, hin] at hp
    exact hp
  have hpayload : subarray input
      (some (as ++ (uint16 c.length ++ (c ++ id.elim [] uint16))).length)
      (some (as.length + (Publish.mk dup q retain c id payload).body.length)) = payload := by
    have hs := subarray_append (as ++ (uint16 c.length ++ (c ++ id.elim [] uint16))) payload bs
    simp only [List.append_assoc] at hs
    rw [hbody, ← hin]
    exact hs
  simp only [List.length_append, length_uint16, ← Nat.add_assoc] at hpayload
  cases id with
  | none =>
    have hq₀ : ¬ 0 < q.val := fun h => by cases hq.mpr h
    rw [Option.elim_none, List.length_nil, Nat.add_zero] at hpayload
    simp only [readPublish, hqos, hlen, Option.elim_some, htopic, if_neg hq₀, Option.map_some,
      Option.map_none, hpayload, hret, hdup]
    exact dif_pos q.isLt
  | some i =>
    have hq₀ : 0 < q.val := hq.mp rfl
    have hid : readUint16 input (some (as.length + 2 + c.length)) = some i := by
      have hr := readUint16_append (hi i rfl) (as ++ (uint16 c.length ++ c)) (payload ++ bs)
      simp only [List.append_assoc, List.length_append, length_uint16, ← Nat.add_assoc] at hr
      rw [← hin]
      exact hr
    rw [Option.elim_some, length_uint16] at hpayload
    simp only [readPublish, hqos, hlen, Option.elim_some, htopic, if_pos hq₀, Option.map_some,
      hid, hpayload, hret, hdup]
    exact dif_pos q.isLt

theorem readMessage_body (h : Reads p m) (as bs : List UInt8) :
    readMessage (p.first >>> 4) (p.first &&& 0x0f) (as ++ (p.body ++ bs)) as.length
      (some (as.length + p.body.length)) = .ok m := by
  cases h with
  | @connAck sessionPresent returnCode =>
    have h₁ : byteAt (as ++ ([.ofNat (bit sessionPresent 1), returnCode] ++ bs))
        (some as.length) = some (bit sessionPresent 1) := by
      have hb := byteAt_append as ([.ofNat (bit sessionPresent 1), returnCode] ++ bs) 0
      rw [Nat.add_zero] at hb
      rw [hb]
      cases sessionPresent <;> rfl
    have h₂ : byteAt (as ++ ([.ofNat (bit sessionPresent 1), returnCode] ++ bs))
        (some (as.length + 1)) = some returnCode.toNat := byteAt_append _ _ 1
    have ht : (0x20 : ℕ) >>> 4 = 2 := by decide
    change readMessage (0x20 >>> 4) _ _ _ _ = _
    rw [ht, readMessage, ControlPacket.body, h₁, h₂]
    cases sessionPresent <;> rfl
  | @publish dup retain qos t id payload ht hi hq =>
    obtain ⟨htype, hinfo, -⟩ := info_publish dup retain qos
    change readMessage ((0x30 + bit dup 8 + qos * 2 + bit retain 1) >>> 4)
      ((0x30 + bit dup 8 + qos * 2 + bit retain 1) &&& 0x0f) _ _ _ = _
    rw [htype, hinfo]
    exact readPublish_body ht hi hq as bs
  | @pubAck i hi =>
    have ht : (0x40 : ℕ) >>> 4 = 4 := by decide
    change readMessage (0x40 >>> 4) _ _ _ _ = _
    rw [ht]
    exact congrArg (fun i => Except.ok (WireMessage.pubAck i)) (readUint16_append hi as bs)
  | @pubRec i hi =>
    have ht : (0x50 : ℕ) >>> 4 = 5 := by decide
    change readMessage (0x50 >>> 4) _ _ _ _ = _
    rw [ht]
    exact congrArg (fun i => Except.ok (WireMessage.pubRec i)) (readUint16_append hi as bs)
  | @pubRel i hi =>
    have ht : (0x62 : ℕ) >>> 4 = 6 := by decide
    change readMessage (0x62 >>> 4) _ _ _ _ = _
    rw [ht]
    exact congrArg (fun i => Except.ok (WireMessage.pubRel i)) (readUint16_append hi as bs)
  | @pubComp i hi =>
    have ht : (0x70 : ℕ) >>> 4 = 7 := by decide
    change readMessage (0x70 >>> 4) _ _ _ _ = _
    rw [ht]
    exact congrArg (fun i => Except.ok (WireMessage.pubComp i)) (readUint16_append hi as bs)
  | @unsubAck flags i hi =>
    have ht : (0xB0 + flags.val) >>> 4 = 11 := by revert flags; decide
    change readMessage ((0xB0 + flags.val) >>> 4) _ _ _ _ = _
    rw [ht]
    exact congrArg (fun i => Except.ok (WireMessage.unsubAck i)) (readUint16_append hi as bs)
  | @subAck i returnCodes hi =>
    have h₁ : readUint16 (as ++ (uint16 i ++ returnCodes ++ bs)) (some as.length) = some i := by
      rw [List.append_assoc, readUint16_append hi]
    have h₂ : subarray (as ++ (uint16 i ++ returnCodes ++ bs)) (some (as.length + 2))
        (some (as.length + (uint16 i ++ returnCodes).length)) = returnCodes := by
      have hs := subarray_append (as ++ uint16 i) returnCodes bs
      simp only [List.append_assoc, List.length_append, length_uint16, Nat.add_assoc] at hs ⊢
      exact hs
    have ht : (0x90 : ℕ) >>> 4 = 9 := by decide
    change readMessage (0x90 >>> 4) _ _ _ _ = _
    rw [ht, readMessage, ControlPacket.body, h₁, h₂]
  | pingResp =>
    have ht : (0xD0 : ℕ) >>> 4 = 13 := by decide
    change readMessage (0xD0 >>> 4) _ _ _ _ = _
    rw [ht]
    rfl

/-! ### Packets -/

theorem decodeMessage_of_decode {l pos : ℕ} {input : List UInt8}
    (h : Varint.decode (input.drop (pos + 1)) = some (n, l)) (hl : l ≤ 147) :
    decodeMessage input pos =
      if input.length < pos + 1 + l + n then .ok (none, some pos)
      else do
        return (some (← readMessage ((byteAt input (some pos)).getD 0 >>> 4)
          ((byteAt input (some pos)).getD 0 &&& 0x0f) input (pos + 1 + l)
          (some (pos + 1 + l + n))), some (pos + 1 + l + n)) := by
  have hr := remLengthFrom_of_some (k := 0) (a := 0) h (by omega)
  rw [Nat.zero_add, Nat.pow_zero, Nat.mul_one, Nat.zero_add] at hr
  rw [decodeMessage, hr]
  simp only [Option.map_some, Option.any_some, decide_eq_true_eq]
  rfl

/-- A packet is read at its position, whatever stands before and behind it. -/
theorem decodeMessage_bytes (h : Reads p m) (hs : p.Sized) (as bs : List UInt8) :
    decodeMessage (as ++ (p.bytes ++ bs)) as.length =
      .ok (some m, some (as.length + p.bytes.length)) := by
  have hle := Varint.length_encode_le 3 p.body.length
  have hd : Varint.decode ((as ++ (p.bytes ++ bs)).drop (as.length + 1)) =
      some (p.body.length, (Varint.encode 3 p.body.length).length) := by
    rw [List.drop_length_add_append, ControlPacket.bytes, frame, List.cons_append, List.drop_one,
      List.tail_cons, List.append_assoc, Varint.decode_encode (k := 3) hs]
  have hfirst : byteAt (as ++ (p.bytes ++ bs)) (some as.length) = some p.first := by
    have hb := byteAt_append as (p.bytes ++ bs) 0
    rw [Nat.add_zero] at hb
    rw [hb]
    change some (UInt8.ofNat p.first).toNat = _
    rw [Utf8.toNat_ofNat_of_lt p.first_lt]
  have hin : as ++ (p.bytes ++ bs) =
      (as ++ .ofNat p.first :: Varint.encode 3 p.body.length) ++ (p.body ++ bs) := by
    simp only [ControlPacket.bytes, frame, List.cons_append, List.append_assoc]
  have hpos : as.length + 1 + (Varint.encode 3 p.body.length).length =
      (as ++ .ofNat p.first :: Varint.encode 3 p.body.length).length := by
    rw [List.length_append, List.length_cons]
    omega
  have hend : as.length + 1 + (Varint.encode 3 p.body.length).length + p.body.length =
      as.length + p.bytes.length := by
    rw [ControlPacket.bytes, length_frame]
    omega
  have hfits : ¬ (as ++ (p.bytes ++ bs)).length < as.length + p.bytes.length := by
    rw [List.length_append, List.length_append]
    omega
  have hm := readMessage_body h (as ++ .ofNat p.first :: Varint.encode 3 p.body.length) bs
  rw [← hin, ← hpos, hend] at hm
  rw [decodeMessage_of_decode hd (by omega), hend, if_neg hfits, hfirst, Option.getD_some, hm]
  rfl

/-- A proper beginning of a packet is left where it is. -/
theorem decodeMessage_isPrefix (hs : p.Sized) (hb : bs <+: p.bytes) (hne : bs ≠ p.bytes)
    (as : List UInt8) :
    decodeMessage (as ++ bs) as.length = .ok (none, some as.length) := by
  have hd : (as ++ bs).drop (as.length + 1) = bs.tail := by
    rw [List.drop_length_add_append, List.drop_one]
  rcases isPrefix_frame hb hne with rfl | ⟨cs, rfl, hc | ⟨ds, rfl, hlt⟩⟩
  · rw [decodeMessage, hd]
    rfl
  · rw [decodeMessage, hd, List.tail_cons, remLengthFrom_of_none hc]
    rfl
  · have hle := Varint.length_encode_le 3 p.body.length
    rw [List.tail_cons] at hd
    have hv := Varint.decode_encode (k := 3) hs ds
    rw [← hd] at hv
    rw [decodeMessage_of_decode hv (by omega), if_pos]
    simp only [List.length_append, List.length_cons]
    omega

end ImProxy.Client
