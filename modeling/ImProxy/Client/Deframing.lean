import ImProxy.Client.WireMessage

/-! # Messages out of the data of a socket

The data that a socket delivers need not end where a message ends. What is left of it is
kept in a buffer and put in front of the data that comes next.
-/

set_option autoImplicit false

namespace ImProxy.Client

variable {input : List UInt8} {pos next : ℕ} {m : WireMessage}

theorem lt_of_decodeMessage (h : decodeMessage input pos = .ok (some m, some next)) :
    pos < next := by
  rw [decodeMessage] at h
  cases hr : remLengthFrom (input.drop (pos + 1)) 0 (some 0) with
  | none => rw [hr] at h; cases h
  | some r =>
    obtain ⟨remLength, digits⟩ := r
    rw [hr] at h
    dsimp only at h
    split_ifs at h
    · cases h
    · cases hm : readMessage ((byteAt input (some pos)).getD 0 >>> 4)
        ((byteAt input (some pos)).getD 0 &&& 0x0f) input (pos + 1 + digits)
        (remLength.map (pos + 1 + digits + ·)) with
      | error e => rw [hm] at h; cases h
      | ok m' =>
        rw [hm] at h
        obtain ⟨-, hn⟩ := Prod.mk.inj (Except.ok.inj h)
        obtain ⟨n, -, rfl⟩ := Option.map_eq_some_iff.mp hn
        omega

/-- The loop of `_deframeMessages`, and the offset at its end. -/
def deframeFrom (byteArray : List UInt8) (offset : ℕ) :
    Except Thrown (List WireMessage × Number) :=
  if offset < byteArray.length then
    match h : decodeMessage byteArray offset with
    | .error e => .error e
    | .ok (none, offset) => .ok ([], offset)
    -- nothing is less than `NaN`
    | .ok (some wireMessage, none) => .ok ([wireMessage], none)
    | .ok (some wireMessage, some next) =>
      have := lt_of_decodeMessage h
      (deframeFrom byteArray next).map fun r => (wireMessage :: r.1, r.2)
  else .ok ([], some offset)
termination_by byteArray.length - offset

theorem deframeFrom_of_le (h : input.length ≤ pos) :
    deframeFrom input pos = .ok ([], some pos) := by
  rw [deframeFrom, if_neg (Nat.not_lt.mpr h)]

theorem deframeFrom_of_none (h : decodeMessage input pos = .ok (none, some pos)) :
    deframeFrom input pos = .ok ([], some pos) := by
  rw [deframeFrom]
  split_ifs
  · split <;> simp_all
  · rfl

theorem deframeFrom_of_some (hlt : pos < input.length)
    (h : decodeMessage input pos = .ok (some m, some next)) :
    deframeFrom input pos = (deframeFrom input next).map fun r => (m :: r.1, r.2) := by
  rw [deframeFrom, if_pos hlt]
  split <;> simp_all

/-- `_deframeMessages`: the messages, or what is thrown and caught, and the new
`receiveBuffer`. -/
def deframeMessages (receiveBuffer : Option (List UInt8)) (data : List UInt8) :
    Except Thrown (List WireMessage) × Option (List UInt8) :=
  let byteArray := receiveBuffer.getD [] ++ data
  match deframeFrom byteArray 0 with
  | .error e => (.error e, none)
  | .ok (messages, offset) =>
    (.ok messages, if offset.any (· < byteArray.length) then
      some (subarray byteArray offset (some byteArray.length)) else none)

/-- The data of one event after another, until something is thrown. -/
def deframeAll : Option (List UInt8) → List (List UInt8) →
    Except Thrown (List WireMessage) × Option (List UInt8)
  | receiveBuffer, [] => (.ok [], receiveBuffer)
  | receiveBuffer, data :: datas =>
    match deframeMessages receiveBuffer data with
    | (.error e, receiveBuffer) => (.error e, receiveBuffer)
    | (.ok messages, receiveBuffer) =>
      let r := deframeAll receiveBuffer datas
      (r.1.map (messages ++ ·), r.2)

end ImProxy.Client
