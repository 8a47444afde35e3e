import ImProxy.Lexical.Utf8
import Mathlib.Tactic.Common

/-! # UTF-16

A character outside the basic plane is written as a lead and a trail. A word is well formed
if every lead is followed by a trail and every trail follows a lead; without the second
condition it is only paired.
-/

set_option autoImplicit false

namespace Lexical.Utf16

def Lead (u : UInt16) : Prop := 0xD800 ≤ u.toNat ∧ u.toNat < 0xDC00

def Trail (u : UInt16) : Prop := 0xDC00 ≤ u.toNat ∧ u.toNat < 0xE000

instance (u : UInt16) : Decidable (Lead u) := inferInstanceAs (Decidable (_ ∧ _))

instance (u : UInt16) : Decidable (Trail u) := inferInstanceAs (Decidable (_ ∧ _))

/-- Every lead is followed by a trail. -/
inductive Paired : List UInt16 → Prop

  | nil : Paired []

  | one {u : UInt16} {us : List UInt16} : ¬ Lead u → Paired us → Paired (u :: us)

  | pair {u v : UInt16} {us : List UInt16} : Lead u → Trail v → Paired us → Paired (u :: v :: us)

/-- The well-formed words. -/
inductive WellFormed : List UInt16 → Prop

  | nil : WellFormed []

  | one {u : UInt16} {us : List UInt16} : ¬ Lead u → ¬ Trail u → WellFormed us →
      WellFormed (u :: us)

  | pair {u v : UInt16} {us : List UInt16} : Lead u → Trail v → WellFormed us →
      WellFormed (u :: v :: us)

/-- The number that a pair stands for. -/
def pairCode (u v : UInt16) : ℕ := (u.toNat - 0xD800) * 0x400 + (v.toNat - 0xDC00) + 0x10000

def encodeChar (c : Char) : List UInt16 :=
  let n := c.toNat
  if n < 0x10000 then [.ofNat n]
  else [.ofNat (0xD800 + (n - 0x10000) / 0x400), .ofNat (0xDC00 + (n - 0x10000) % 0x400)]

def encode (s : List Char) : List UInt16 := s.flatMap encodeChar

variable {u v : UInt16} {us : List UInt16} {n : ℕ}

theorem Lead.not_trail (h : Lead u) : ¬ Trail u := fun ht => by
  obtain ⟨-, h⟩ := h
  obtain ⟨ht, -⟩ := ht
  omega

theorem WellFormed.paired (h : WellFormed us) : Paired us := by
  induction h with
  | nil => exact .nil
  | one hu _ _ ih => exact .one hu ih
  | pair hu hv _ ih => exact .pair hu hv ih

theorem toNat_ofNat_of_lt (h : n < 65536) : (UInt16.ofNat n).toNat = n := by
  rw [UInt16.toNat_ofNat', Nat.mod_eq_of_lt h]

theorem ofNat_eq (h : n = u.toNat) : UInt16.ofNat n = u := by
  rw [h, UInt16.ofNat_toNat]

theorem pairCode_lt (hu : Lead u) (hv : Trail v) :
    0x10000 ≤ pairCode u v ∧ pairCode u v < 0x110000 := by
  obtain ⟨hu₁, hu₂⟩ := hu
  obtain ⟨hv₁, hv₂⟩ := hv
  rw [pairCode]
  omega

theorem lead_ofNat (h : n < 0x400) : Lead (.ofNat (0xD800 + n)) := by
  rw [Lead, toNat_ofNat_of_lt (by omega)]
  omega

theorem trail_ofNat (h : n < 0x400) : Trail (.ofNat (0xDC00 + n)) := by
  rw [Trail, toNat_ofNat_of_lt (by omega)]
  omega

theorem WellFormed.encodeChar (c : Char) (h : WellFormed us) :
    WellFormed (encodeChar c ++ us) := by
  have hc : c.toNat < 0xD800 ∨ 0xDFFF < c.toNat ∧ c.toNat < 0x110000 := c.valid
  simp only [Utf16.encodeChar]
  split_ifs with hn
  · have hu : (UInt16.ofNat c.toNat).toNat = c.toNat := toNat_ofNat_of_lt hn
    refine .one (fun hl => ?_) (fun ht => ?_) h
    · rw [Lead, hu] at hl
      omega
    · rw [Trail, hu] at ht
      omega
  · exact .pair (lead_ofNat (by omega)) (trail_ofNat (by omega)) h

theorem encodeChar_of_lt (hl : ¬ Lead u) (ht : ¬ Trail u) :
    encodeChar (Char.ofNat u.toNat) = [u] := by
  have hu : u.toNat < 65536 := u.toNat_lt
  have hv : u.toNat < 0xD800 ∨ 0xDFFF < u.toNat ∧ u.toNat < 0x110000 := by
    rw [Lead] at hl
    rw [Trail] at ht
    omega
  rw [encodeChar, Utf8.toNat_char hv, if_pos hu, UInt16.ofNat_toNat]

theorem encodeChar_pairCode (hu : Lead u) (hv : Trail v) :
    encodeChar (Char.ofNat (pairCode u v)) = [u, v] := by
  obtain ⟨h₁, h₂⟩ := pairCode_lt hu hv
  rw [encodeChar, Utf8.toNat_char (by omega), if_neg (by omega)]
  obtain ⟨hu₁, hu₂⟩ := hu
  obtain ⟨hv₁, hv₂⟩ := hv
  rw [ofNat_eq (u := u) (by rw [pairCode]; omega), ofNat_eq (u := v) (by rw [pairCode]; omega)]

/-- The well-formed words are the encodings of texts. -/
theorem wellFormed_iff : WellFormed us ↔ ∃ s, us = encode s := by
  constructor
  · intro h
    induction h with
    | nil => exact ⟨[], rfl⟩
    | @one u us hl ht _ ih =>
      obtain ⟨s, rfl⟩ := ih
      exact ⟨Char.ofNat u.toNat :: s, by
        rw [encode, encode, List.flatMap_cons, encodeChar_of_lt hl ht]; rfl⟩
    | @pair u v us hu hv _ ih =>
      obtain ⟨s, rfl⟩ := ih
      exact ⟨Char.ofNat (pairCode u v) :: s, by
        rw [encode, encode, List.flatMap_cons, encodeChar_pairCode hu hv]; rfl⟩
  · rintro ⟨s, rfl⟩
    induction s with
    | nil => exact .nil
    | cons c s ih => exact ih.encodeChar c

end Lexical.Utf16
