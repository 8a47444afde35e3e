import Mathlib.Data.List.Basic
import Mathlib.Tactic.Ring

/-! # Numbers in digits of seven bits

A number is written with its lowest digit first. The highest bit of a byte tells that
another digit follows, so what is written can be read back with anything behind it, and
no proper beginning of it can be taken for a number.
-/

set_option autoImplicit false

namespace Lexical.Varint

variable {n k : ℕ} {bs cs : List UInt8}

/-- Write a number in one digit and at most `k` more. -/
def encode : ℕ → ℕ → List UInt8
  | 0, n => [.ofNat n]
  | k + 1, n => if n < 128 then [.ofNat n] else .ofNat (n % 128 + 128) :: encode k (n / 128)

/-- Read a number, and how many bytes it takes. -/
def decode : List UInt8 → Option (ℕ × ℕ)
  | [] => none
  | b :: bs =>
    if b.toNat < 128 then some (b.toNat, 1)
    else (decode bs).map fun r => (b.toNat % 128 + 128 * r.1, r.2 + 1)

theorem toNat_ofNat_of_lt (h : n < 256) : (UInt8.ofNat n).toNat = n := by
  rw [UInt8.toNat_ofNat', Nat.mod_eq_of_lt h]

theorem toNat_digit (n : ℕ) : (UInt8.ofNat (n % 128 + 128)).toNat = n % 128 + 128 :=
  toNat_ofNat_of_lt (by omega)

theorem length_encode_le (k n : ℕ) : (encode k n).length ≤ k + 1 := by
  induction k generalizing n with
  | zero => exact Nat.le_refl _
  | succ k ih =>
    rw [encode]
    split_ifs
    · simp
    · rw [List.length_cons]
      exact Nat.succ_le_succ (ih _)

theorem div_lt (h : n < 128 ^ (k + 2)) : n / 128 < 128 ^ (k + 1) := by
  rw [Nat.div_lt_iff_lt_mul (by decide), ← Nat.pow_succ]
  exact h

/-- Reading undoes writing, whatever stands behind the number. -/
theorem decode_encode (h : n < 128 ^ (k + 1)) (bs : List UInt8) :
    decode (encode k n ++ bs) = some (n, (encode k n).length) := by
  induction k generalizing n with
  | zero =>
    have hn : n < 128 := by simpa using h
    simp [encode, decode, toNat_ofNat_of_lt (show n < 256 by omega), hn]
  | succ k ih =>
    rw [encode]
    split_ifs with hn
    · simp [decode, toNat_ofNat_of_lt (show n < 256 by omega), hn]
    · rw [List.cons_append, decode, toNat_digit, if_neg (by omega), ih (div_lt h)]
      simp only [Option.map_some, List.length_cons, Option.some.injEq, Prod.mk.injEq, and_true]
      omega

theorem decode_isPrefix_single {b : UInt8} (h : bs <+: [b]) (hne : bs ≠ [b]) :
    decode bs = none := by
  cases bs with
  | nil => rfl
  | cons c bs =>
    obtain ⟨hc, h'⟩ := List.cons_prefix_cons.mp h
    exact absurd (by rw [hc, List.prefix_nil.mp h']) hne

/-- A proper beginning of a number is not a number. -/
theorem decode_isPrefix (h : bs <+: encode k n) (hne : bs ≠ encode k n) : decode bs = none := by
  induction k generalizing n bs with
  | zero => exact decode_isPrefix_single h hne
  | succ k ih =>
    rw [encode] at h hne
    split_ifs at h hne with hn
    · exact decode_isPrefix_single h hne
    · cases bs with
      | nil => rfl
      | cons b bs =>
        obtain ⟨hb, h'⟩ := List.cons_prefix_cons.mp h
        have hd := ih h' fun he => hne (by rw [hb, he])
        rw [decode, hb, toNat_digit, if_neg (by omega), hd]
        rfl

end Lexical.Varint
