import Mathlib.Data.Char
import Mathlib.Data.List.Basic

/-! # UTF-8

The well-formed byte sequences, the encoding of a text, and a decoder that puts the
replacement character in the place of what is malformed. Decoding and encoding a
byte sequence gives it back exactly if it is well formed.
-/

set_option autoImplicit false

namespace Lexical.Utf8

def Tail (b : UInt8) : Prop := 0x80 ≤ b.toNat ∧ b.toNat < 0xC0

instance (b : UInt8) : Decidable (Tail b) := inferInstanceAs (Decidable (_ ∧ _))

/-- The well-formed byte sequences. -/
inductive WellFormed : List UInt8 → Prop

  | nil : WellFormed []

  | one {a : UInt8} {bs : List UInt8} : a.toNat < 0x80 → WellFormed bs → WellFormed (a :: bs)

  | two {a b : UInt8} {bs : List UInt8} : 0xC2 ≤ a.toNat → a.toNat < 0xE0 → Tail b →
      WellFormed bs → WellFormed (a :: b :: bs)

  | three {a b c : UInt8} {bs : List UInt8} : 0xE0 ≤ a.toNat → a.toNat < 0xF0 → Tail b → Tail c →
      (a.toNat = 0xE0 → 0xA0 ≤ b.toNat) → (a.toNat = 0xED → b.toNat < 0xA0) →
      WellFormed bs → WellFormed (a :: b :: c :: bs)

  | four {a b c d : UInt8} {bs : List UInt8} : 0xF0 ≤ a.toNat → a.toNat ≤ 0xF4 →
      Tail b → Tail c → Tail d → (a.toNat = 0xF0 → 0x90 ≤ b.toNat) →
      (a.toNat = 0xF4 → b.toNat < 0x90) → WellFormed bs → WellFormed (a :: b :: c :: d :: bs)

def encodeChar (c : Char) : List UInt8 :=
  let n := c.toNat
  if n < 0x80 then [.ofNat n]
  else if n < 0x800 then [.ofNat (0xC0 + n / 64), .ofNat (0x80 + n % 64)]
  else if n < 0x10000 then
    [.ofNat (0xE0 + n / 4096), .ofNat (0x80 + n / 64 % 64), .ofNat (0x80 + n % 64)]
  else
    [.ofNat (0xF0 + n / 262144), .ofNat (0x80 + n / 4096 % 64), .ofNat (0x80 + n / 64 % 64),
      .ofNat (0x80 + n % 64)]

def encode (s : List Char) : List UInt8 := s.flatMap encodeChar

/-- The same pattern for a number that need not be a character. -/
def encodeCode (n : ℕ) : List UInt8 :=
  if n < 0x80 then [.ofNat n]
  else if n < 0x800 then [.ofNat (0xC0 + n / 64), .ofNat (0x80 + n % 64)]
  else if n < 0x10000 then
    [.ofNat (0xE0 + n / 4096), .ofNat (0x80 + n / 64 % 64), .ofNat (0x80 + n % 64)]
  else
    [.ofNat (0xF0 + n / 262144), .ofNat (0x80 + n / 4096 % 64), .ofNat (0x80 + n / 64 % 64),
      .ofNat (0x80 + n % 64)]

def replacement : Char := Char.ofNat 0xFFFD

/-- The second byte can follow the first one. A first byte that starts no character has no
second byte; surrogates are told apart later. -/
def Second (a b : UInt8) : Prop :=
  0xC2 ≤ a.toNat ∧ a.toNat ≤ 0xF4 ∧ Tail b ∧ (a.toNat = 0xE0 → 0xA0 ≤ b.toNat) ∧
    (a.toNat = 0xF0 → 0x90 ≤ b.toNat) ∧ (a.toNat = 0xF4 → b.toNat < 0x90)

instance (a b : UInt8) : Decidable (Second a b) := inferInstanceAs (Decidable (_ ∧ _))

/-- The character at a position, and how many of the bytes that follow belong to it. -/
def decodeChar (a : UInt8) : List UInt8 → Char × ℕ
  | [] => (if a.toNat < 0x80 then Char.ofNat a.toNat else replacement, 0)
  | b :: bs =>
    if a.toNat < 0x80 then (Char.ofNat a.toNat, 0)
    else if ¬ Second a b then (replacement, 0)
    else if a.toNat < 0xE0 then (Char.ofNat (a.toNat % 32 * 64 + b.toNat % 64), 1)
    else match bs with
      | [] => (replacement, 1)
      | c :: bs =>
        if ¬ Tail c then (replacement, 1)
        else if a.toNat < 0xF0 then
          let n := a.toNat % 16 * 4096 + b.toNat % 64 * 64 + c.toNat % 64
          -- a surrogate
          (if 0xD800 ≤ n ∧ n < 0xE000 then replacement else Char.ofNat n, 2)
        else match bs with
          | [] => (replacement, 2)
          | d :: _ =>
            if ¬ Tail d then (replacement, 2)
            else (Char.ofNat (a.toNat % 8 * 262144 + b.toNat % 64 * 4096 + c.toNat % 64 * 64 +
              d.toNat % 64), 3)

/-- Decode from a position on where so many bytes still belong to the last character. -/
def decodeFrom : ℕ → List UInt8 → List Char
  | _, [] => []
  | k + 1, _ :: bs => decodeFrom k bs
  | 0, a :: bs => (decodeChar a bs).1 :: decodeFrom (decodeChar a bs).2 bs

def decode (bs : List UInt8) : List Char := decodeFrom 0 bs

/-! ### What encoding gives is well formed -/

variable {a b c d : UInt8} {bs : List UInt8} {n : ℕ}

theorem toNat_ofNat_of_lt (h : n < 256) : (UInt8.ofNat n).toNat = n := by
  rw [UInt8.toNat_ofNat', Nat.mod_eq_of_lt h]

theorem tail_ofNat (h : n < 64) : Tail (UInt8.ofNat (0x80 + n)) := by
  rw [Tail, toNat_ofNat_of_lt (by omega)]
  omega

theorem WellFormed.encodeChar (c : Char) (h : WellFormed bs) :
    WellFormed (encodeChar c ++ bs) := by
  have hc : c.toNat < 0xD800 ∨ 0xDFFF < c.toNat ∧ c.toNat < 0x110000 := c.valid
  simp only [Utf8.encodeChar]
  split_ifs with h₁ h₂ h₃
  · exact .one (by rw [toNat_ofNat_of_lt (by omega)]; exact h₁) h
  · have ha : (UInt8.ofNat (0xC0 + c.toNat / 64)).toNat = 0xC0 + c.toNat / 64 :=
      toNat_ofNat_of_lt (by omega)
    exact .two (by omega) (by omega) (tail_ofNat (by omega)) h
  · have ha : (UInt8.ofNat (0xE0 + c.toNat / 4096)).toNat = 0xE0 + c.toNat / 4096 :=
      toNat_ofNat_of_lt (by omega)
    have hb : (UInt8.ofNat (0x80 + c.toNat / 64 % 64)).toNat = 0x80 + c.toNat / 64 % 64 :=
      toNat_ofNat_of_lt (by omega)
    exact .three (by omega) (by omega) (tail_ofNat (by omega)) (tail_ofNat (by omega))
      (by omega) (by omega) h
  · have ha : (UInt8.ofNat (0xF0 + c.toNat / 262144)).toNat = 0xF0 + c.toNat / 262144 :=
      toNat_ofNat_of_lt (by omega)
    have hb : (UInt8.ofNat (0x80 + c.toNat / 4096 % 64)).toNat = 0x80 + c.toNat / 4096 % 64 :=
      toNat_ofNat_of_lt (by omega)
    exact .four (by omega) (by omega) (tail_ofNat (by omega)) (tail_ofNat (by omega))
      (tail_ofNat (by omega)) (by omega) (by omega) h

theorem wellFormed_encode (s : List Char) : WellFormed (encode s) := by
  induction s with
  | nil => exact .nil
  | cons c s ih => exact ih.encodeChar c

/-! ### What is well formed is decoded without loss -/

theorem decodeFrom_append (as bs : List UInt8) :
    decodeFrom as.length (as ++ bs) = decode bs := by
  induction as with
  | nil => rfl
  | cons a as ih => exact ih

theorem toNat_char (h : n < 0xD800 ∨ 0xDFFF < n ∧ n < 0x110000) : (Char.ofNat n).toNat = n := by
  rw [Char.ofNat, dif_pos h]
  rfl

theorem ofNat_eq (h : n = a.toNat) : UInt8.ofNat n = a := by
  rw [h, UInt8.ofNat_toNat]

theorem encode_decode_char (as : List UInt8)
    (h : decodeChar a (as ++ bs) = (Char.ofNat n, as.length))
    (he : encodeChar (Char.ofNat n) = a :: as) :
    encode (decode (a :: (as ++ bs))) = a :: (as ++ encode (decode bs)) := by
  rw [decode, decodeFrom, h, decodeFrom_append, encode, List.flatMap_cons, he]
  rfl

theorem encode_decode_one (h : a.toNat < 0x80) :
    encode (decode (a :: bs)) = a :: encode (decode bs) := by
  refine encode_decode_char (n := a.toNat) [] ?_ ?_
  · cases bs <;> simp [decodeChar, h]
  · rw [encodeChar, toNat_char (by omega), if_pos h, ofNat_eq rfl]

theorem encode_decode_two (ha : 0xC2 ≤ a.toNat) (ha' : a.toNat < 0xE0) (hb : Tail b) :
    encode (decode (a :: b :: bs)) = a :: b :: encode (decode bs) := by
  refine encode_decode_char (n := a.toNat % 32 * 64 + b.toNat % 64) [b] ?_ ?_
  · have hs : Second a b := ⟨ha, by omega, hb, by omega, by omega, by omega⟩
    simp [decodeChar, hs, ha', show ¬ a.toNat < 0x80 by omega]
  · obtain ⟨hb₁, hb₂⟩ := hb
    rw [encodeChar, toNat_char (by omega), if_neg (by omega), if_pos (by omega),
      ofNat_eq (a := a) (by omega), ofNat_eq (a := b) (by omega)]

theorem encode_decode_three (ha : 0xE0 ≤ a.toNat) (ha' : a.toNat < 0xF0) (hb : Tail b)
    (hc : Tail c) (hE0 : a.toNat = 0xE0 → 0xA0 ≤ b.toNat)
    (hED : a.toNat = 0xED → b.toNat < 0xA0) :
    encode (decode (a :: b :: c :: bs)) = a :: b :: c :: encode (decode bs) := by
  have hb' := hb
  have hc' := hc
  obtain ⟨hb₁, hb₂⟩ := hb'
  obtain ⟨hc₁, hc₂⟩ := hc'
  refine encode_decode_char
    (n := a.toNat % 16 * 4096 + b.toNat % 64 * 64 + c.toNat % 64) [b, c] ?_ ?_
  · have hs : Second a b := ⟨by omega, by omega, hb, hE0, by omega, by omega⟩
    simp only [List.cons_append, List.nil_append, decodeChar]
    rw [if_neg (by omega), if_neg (by simpa using hs), if_neg (by omega),
      if_neg (by simpa using hc), if_pos ha', if_neg (by omega)]
    rfl
  · rw [encodeChar, toNat_char (by omega), if_neg (by omega), if_neg (by omega),
      if_pos (by omega), ofNat_eq (a := a) (by omega), ofNat_eq (a := b) (by omega),
      ofNat_eq (a := c) (by omega)]

theorem encode_decode_four (ha : 0xF0 ≤ a.toNat) (ha' : a.toNat ≤ 0xF4) (hb : Tail b)
    (hc : Tail c) (hd : Tail d) (hF0 : a.toNat = 0xF0 → 0x90 ≤ b.toNat)
    (hF4 : a.toNat = 0xF4 → b.toNat < 0x90) :
    encode (decode (a :: b :: c :: d :: bs)) = a :: b :: c :: d :: encode (decode bs) := by
  have hb' := hb
  have hc' := hc
  have hd' := hd
  obtain ⟨hb₁, hb₂⟩ := hb'
  obtain ⟨hc₁, hc₂⟩ := hc'
  obtain ⟨hd₁, hd₂⟩ := hd'
  refine encode_decode_char (n := a.toNat % 8 * 262144 + b.toNat % 64 * 4096 +
    c.toNat % 64 * 64 + d.toNat % 64) [b, c, d] ?_ ?_
  · have hs : Second a b := ⟨by omega, by omega, hb, by omega, hF0, hF4⟩
    simp only [List.cons_append, List.nil_append, decodeChar]
    rw [if_neg (by omega), if_neg (by simpa using hs), if_neg (by omega),
      if_neg (by simpa using hc), if_neg (by omega), if_neg (by simpa using hd)]
    rfl
  · rw [encodeChar, toNat_char (by omega), if_neg (by omega), if_neg (by omega),
      if_neg (by omega), ofNat_eq (a := a) (by omega), ofNat_eq (a := b) (by omega),
      ofNat_eq (a := c) (by omega), ofNat_eq (a := d) (by omega)]

/-- Decoding loses nothing exactly of the well-formed byte sequences. -/
theorem encode_decode_iff : encode (decode bs) = bs ↔ WellFormed bs := by
  constructor
  · intro h
    rw [← h]
    exact wellFormed_encode _
  · intro h
    induction h with
    | nil => rfl
    | one ha _ ih => rw [encode_decode_one ha, ih]
    | two ha ha' hb _ ih => rw [encode_decode_two ha ha' hb, ih]
    | three ha ha' hb hc hE0 hED _ ih => rw [encode_decode_three ha ha' hb hc hE0 hED, ih]
    | four ha ha' hb hc hd hF0 hF4 _ ih => rw [encode_decode_four ha ha' hb hc hd hF0 hF4, ih]

end Lexical.Utf8
