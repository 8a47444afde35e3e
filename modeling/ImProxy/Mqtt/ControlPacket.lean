import ImProxy.Lexical.Varint

/-! # The wire format of control packets

A packet is a first byte, the length of its body in digits of seven bits, and the body.
Texts and binary data in a body have their length in front, in two bytes. No packet is the
beginning of another one. The flags of an UNSUBACK are its own, since some servers set them.
-/

set_option autoImplicit false

namespace Mqtt

open Lexical

/-- The two bytes of a number, the high one first. -/
def uint16 (n : ℕ) : List UInt8 := [.ofNat (n / 256), .ofNat n]

/-- Data with its length in front. -/
def field (bs : List UInt8) : List UInt8 := uint16 bs.length ++ bs

def frame (first : ℕ) (body : List UInt8) : List UInt8 :=
  .ofNat first :: (Varint.encode 3 body.length ++ body)

structure Will where
  topic : List UInt8
  message : List UInt8
  qos : Fin 3
  retain : Bool

structure Connect where
  protocolName : List UInt8
  protocolLevel : ℕ
  cleanSession : Bool
  keepAlive : ℕ
  clientId : List UInt8
  will : Option Will
  userName : Option (List UInt8)
  password : Option (List UInt8)

structure Publish where
  dup : Bool
  qos : Fin 3
  retain : Bool
  topicName : List UInt8
  packetId : Option ℕ
  payload : List UInt8

inductive ControlPacket
  | connect (connect : Connect)
  | connAck (sessionPresent : Bool) (returnCode : UInt8)
  | publish (publish : Publish)
  | pubAck (packetId : ℕ)
  | pubRec (packetId : ℕ)
  | pubRel (packetId : ℕ)
  | pubComp (packetId : ℕ)
  | subscribe (packetId : ℕ) (filters : List (List UInt8 × Fin 3))
  | subAck (packetId : ℕ) (returnCodes : List UInt8)
  | unsubscribe (packetId : ℕ) (filters : List (List UInt8))
  | unsubAck (flags : Fin 16) (packetId : ℕ)
  | pingReq
  | pingResp
  | disconnect

def bit (b : Bool) (n : ℕ) : ℕ := if b then n else 0

def Connect.flags (c : Connect) : ℕ :=
  bit c.userName.isSome 0x80 + bit c.password.isSome 0x40 +
    (c.will.elim 0 fun w => bit w.retain 0x20 + w.qos * 8 + 4) + bit c.cleanSession 2

def Connect.body (c : Connect) : List UInt8 :=
  field c.protocolName ++ [.ofNat c.protocolLevel, .ofNat c.flags] ++ uint16 c.keepAlive ++
    field c.clientId ++ (c.will.elim [] fun w => field w.topic ++ field w.message) ++
    c.userName.elim [] field ++ c.password.elim [] field

def Publish.body (p : Publish) : List UInt8 :=
  field p.topicName ++ p.packetId.elim [] uint16 ++ p.payload

namespace ControlPacket

def first : ControlPacket → ℕ
  | .connect _ => 0x10
  | .connAck _ _ => 0x20
  | .publish p => 0x30 + bit p.dup 8 + p.qos * 2 + bit p.retain 1
  | .pubAck _ => 0x40
  | .pubRec _ => 0x50
  | .pubRel _ => 0x62
  | .pubComp _ => 0x70
  | .subscribe _ _ => 0x82
  | .subAck _ _ => 0x90
  | .unsubscribe _ _ => 0xA2
  | .unsubAck flags _ => 0xB0 + flags
  | .pingReq => 0xC0
  | .pingResp => 0xD0
  | .disconnect => 0xE0

def body : ControlPacket → List UInt8
  | .connect c => c.body
  | .connAck sessionPresent returnCode => [.ofNat (bit sessionPresent 1), returnCode]
  | .publish p => p.body
  | .pubAck packetId => uint16 packetId
  | .pubRec packetId => uint16 packetId
  | .pubRel packetId => uint16 packetId
  | .pubComp packetId => uint16 packetId
  | .subscribe packetId filters =>
    uint16 packetId ++ filters.flatMap fun f => field f.1 ++ [.ofNat f.2]
  | .subAck packetId returnCodes => uint16 packetId ++ returnCodes
  | .unsubscribe packetId filters => uint16 packetId ++ filters.flatMap field
  | .unsubAck _ packetId => uint16 packetId
  | .pingReq => []
  | .pingResp => []
  | .disconnect => []

def bytes (p : ControlPacket) : List UInt8 := frame p.first p.body

theorem first_lt (p : ControlPacket) : p.first < 256 := by
  cases p with
  | publish p =>
    have hq := p.qos.isLt
    simp only [first, bit]
    split_ifs <;> omega
  | unsubAck flags i =>
    have hf := flags.isLt
    simp only [first]
    omega
  | _ => simp [first]

/-- The length of the body can be written. -/
def Sized (p : ControlPacket) : Prop := p.body.length < 128 ^ 4

instance (p : ControlPacket) : Decidable p.Sized := inferInstanceAs (Decidable (_ < _))

end ControlPacket

/-! ### Reading a frame -/

variable {first n : ℕ} {bs body : List UInt8}

theorem length_uint16 (n : ℕ) : (uint16 n).length = 2 := rfl

theorem length_field (bs : List UInt8) : (field bs).length = bs.length + 2 := by
  rw [field, List.length_append, length_uint16, Nat.add_comm]

theorem length_frame (first : ℕ) (body : List UInt8) :
    (frame first body).length =
      (Varint.encode 3 body.length).length + body.length + 1 := by
  rw [frame, List.length_cons, List.length_append]

/-- In a proper beginning of a frame the length or a part of the body is missing. -/
theorem isPrefix_frame (h : bs <+: frame first body) (hne : bs ≠ frame first body) :
    bs = [] ∨ ∃ cs, bs = .ofNat first :: cs ∧ (Varint.decode cs = none ∨
      ∃ ds, cs = Varint.encode 3 body.length ++ ds ∧ ds.length < body.length) := by
  cases bs with
  | nil => exact .inl rfl
  | cons b cs =>
    obtain ⟨rfl, h'⟩ := List.cons_prefix_cons.mp h
    refine .inr ⟨cs, rfl, ?_⟩
    have complete : ∀ {ds t : List UInt8}, cs = Varint.encode 3 body.length ++ ds →
        ds ++ t = body → ds.length < body.length := by
      rintro ds t rfl rfl
      rw [List.length_append]
      refine Nat.lt_add_of_pos_right (List.length_pos_iff.mpr fun ht => hne ?_)
      rw [frame, ht, List.append_nil]
    obtain ⟨t, ht⟩ := h'
    rcases List.append_eq_append_iff.mp ht with ⟨a, ha, -⟩ | ⟨ds, hcs, hbody⟩
    · by_cases ha' : a = []
      · have hcs : cs = Varint.encode 3 body.length ++ [] := by simp [ha, ha']
        have hbody : ([] : List UInt8) ++ t = body := by
          rw [hcs, List.append_assoc] at ht
          exact List.append_cancel_left ht
        exact .inr ⟨[], hcs, complete hcs hbody⟩
      · exact .inl (Varint.decode_isPrefix ⟨a, ha.symm⟩ fun he => ha' (by simpa [he] using ha))
    · exact .inr ⟨ds, hcs, complete hcs hbody.symm⟩

end Mqtt
