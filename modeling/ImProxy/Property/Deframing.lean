import ImProxy.Client.Decoding
import ImProxy.Client.Deframing
import ImProxy.Lexical.Framing
import Mathlib.Data.List.Forall2

/-! # Packets out of a stream

However a stream of packets is cut into the data of events, the client makes the same
messages of it: those of the packets that are complete, in their order. The rest stays in
its buffer.
-/

set_option autoImplicit false

namespace ImProxy

open Client Lexical Lexical.Framing Mqtt

variable {ps qs : List ControlPacket} {ms : List WireMessage} {rest : List UInt8}

def ReadsAll (ps : List ControlPacket) (ms : List WireMessage) : Prop :=
  List.Forall₂ (fun p m => Reads p m ∧ p.Sized) ps ms

/-- What the client keeps of a stream behind the last complete message. -/
def remainder (rest : List UInt8) : Option (List UInt8) := if rest = [] then none else some rest

theorem getD_remainder (rest : List UInt8) : (remainder rest).getD [] = rest := by
  rw [remainder]
  split_ifs with h
  · exact h.symm
  · rfl

theorem deframeFrom_partial (h : Partial ControlPacket.bytes ps rest)
    (hs : ∀ p ∈ ps, p.Sized) (as : List UInt8) :
    deframeFrom (as ++ rest) as.length = .ok ([], some as.length) := by
  cases h with
  | nil => exact deframeFrom_of_le (by rw [List.append_nil])
  | @cons p ps _ hp hne =>
    exact deframeFrom_of_none (decodeMessage_isPrefix (hs p List.mem_cons_self) hp hne as)

theorem deframeFrom_flatMap (h : ReadsAll qs ms) (hp : Partial ControlPacket.bytes ps rest)
    (hs : ∀ p ∈ ps, p.Sized) (as : List UInt8) :
    deframeFrom (as ++ (qs.flatMap ControlPacket.bytes ++ rest)) as.length =
      .ok (ms, some (as ++ qs.flatMap ControlPacket.bytes).length) := by
  induction h generalizing as with
  | nil =>
    rw [List.flatMap_nil, List.nil_append, List.append_nil]
    exact deframeFrom_partial hp hs as
  | @cons p m qs ms hpm _ ih =>
    obtain ⟨hr, hsz⟩ := hpm
    have hlt : as.length <
        (as ++ (p.bytes ++ (qs.flatMap ControlPacket.bytes ++ rest))).length := by
      rw [List.length_append, List.length_append, ControlPacket.bytes, length_frame]
      omega
    have hi := ih (as ++ p.bytes)
    rw [List.append_assoc, List.append_assoc, List.length_append] at hi
    rw [List.flatMap_cons, List.append_assoc,
      deframeFrom_of_some hlt (decodeMessage_bytes hr hsz as _), hi]
    rfl

theorem deframeMessages_eq (h : ReadsAll qs ms) (hp : Partial ControlPacket.bytes ps rest)
    (hs : ∀ p ∈ ps, p.Sized) {old data : List UInt8}
    (ho : old ++ data = qs.flatMap ControlPacket.bytes ++ rest) :
    deframeMessages (remainder old) data = (.ok ms, remainder rest) := by
  have hd := deframeFrom_flatMap h hp hs []
  rw [List.nil_append, List.nil_append, List.length_nil, ← ho] at hd
  have hl : (old ++ data).length = (qs.flatMap ControlPacket.bytes).length + rest.length := by
    rw [ho, List.length_append]
  rw [deframeMessages, getD_remainder, hd]
  simp only [Option.any_some, decide_eq_true_eq, remainder]
  congr 1
  split_ifs with h₁ h₂ h₂
  · rw [h₂, List.length_nil] at hl
    omega
  · rw [ho, subarray, Option.getD_some, Option.getD_some, List.take_length, List.drop_left]
  · rfl
  · have := List.length_pos_iff.mpr h₂
    omega

theorem ReadsAll.sized (h : ReadsAll ps ms) : ∀ p ∈ ps, p.Sized := by
  induction h with
  | nil => simp
  | cons hpm _ ih => exact List.forall_mem_cons.mpr ⟨hpm.2, ih⟩

theorem deframeAll_remainder (h : ReadsAll ps ms) {old : List UInt8} {datas : List (List UInt8)}
    (ho : Partial ControlPacket.bytes ps old)
    (hd : old ++ datas.flatten <+: ps.flatMap ControlPacket.bytes) :
    ∃ n rest, old ++ datas.flatten = (ps.take n).flatMap ControlPacket.bytes ++ rest ∧
      Partial ControlPacket.bytes (ps.drop n) rest ∧
      deframeAll (remainder old) datas = (.ok (ms.take n), remainder rest) := by
  induction datas generalizing ps ms old with
  | nil => exact ⟨0, old, by simp, ho, rfl⟩
  | cons data datas ih =>
    rw [List.flatten_cons, ← List.append_assoc] at hd
    obtain ⟨ks, ls, r, rfl, hr, hp⟩ :=
      exists_split ((List.prefix_append (old ++ data) datas.flatten).trans hd)
    have hks : ReadsAll ks (ms.take ks.length) := by
      have := List.forall₂_take ks.length h
      rwa [List.take_left] at this
    have hls : ReadsAll ls (ms.drop ks.length) := by
      have := List.forall₂_drop ks.length h
      rwa [List.drop_left] at this
    rw [hr, List.flatMap_append, List.append_assoc, List.prefix_append_right_inj] at hd
    obtain ⟨n, rest, he, hp', hall⟩ := ih hls hp hd
    refine ⟨ks.length + n, rest, ?_, ?_, ?_⟩
    · rw [List.flatten_cons, ← List.append_assoc, hr, List.append_assoc, he,
        List.take_length_add_append, List.flatMap_append, List.append_assoc]
    · rwa [List.drop_length_add_append]
    · rw [deframeAll, deframeMessages_eq hks hp hls.sized hr, List.take_add]
      dsimp only
      rw [hall]
      rfl

/-- However a beginning of a stream of packets is cut, the client makes the messages of the
packets that are complete, in their order, and keeps the rest. -/
theorem deframeAll_eq (h : ReadsAll ps ms) {datas : List (List UInt8)}
    (hd : datas.flatten <+: ps.flatMap ControlPacket.bytes) :
    ∃ n rest, datas.flatten = (ps.take n).flatMap ControlPacket.bytes ++ rest ∧
      Partial ControlPacket.bytes (ps.drop n) rest ∧
      deframeAll none datas = (.ok (ms.take n), remainder rest) :=
  deframeAll_remainder h (.nil ps) hd

theorem deframeAll_eq_cut : ∃ n rest,
    ([[0x20, 0x02, 0x00], [0x00, 0xB2, 0x02], [0x00, 0x07, 0x30, 0x04, 0x00], [0x01, 0x61]] :
        List (List UInt8)).flatten =
      ([.connAck false 0, .unsubAck 2 7,
        .publish ⟨false, 0, false, Utf8.encode ['a'], none, [0x62]⟩].take
          n).flatMap ControlPacket.bytes ++ rest ∧
      Partial ControlPacket.bytes ([.connAck false 0, .unsubAck 2 7,
        .publish ⟨false, 0, false, Utf8.encode ['a'], none, [0x62]⟩].drop n) rest ∧
      deframeAll none [[0x20, 0x02, 0x00], [0x00, 0xB2, 0x02], [0x00, 0x07, 0x30, 0x04, 0x00],
          [0x01, 0x61]] =
        (.ok ([.connAck false (some 0), .unsubAck (some 7), .publish none
          ⟨.bytes [0x62], Utf16.encode ['a'], 0, false, false⟩].take n), remainder rest) :=
  deframeAll_eq (.cons ⟨.connAck, by decide⟩ (.cons ⟨.unsubAck (by decide), by decide⟩
    (.cons ⟨.publish (by decide) (by simp) (by decide), by decide⟩ .nil))) (by decide)

end ImProxy
