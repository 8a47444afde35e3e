import ImProxy.Client.Message

/-! # Texts and their bytes

The client takes every lead together with the unit behind it and writes one character for
the two. A text is taken apart into such characters; what is written are their bytes, and
what is read back are their units.
-/

set_option autoImplicit false

namespace ImProxy.Client

open Lexical Utf16

variable {s : JsString} {vs : List ℕ} {v n k : ℕ} {bs : List UInt8} {u : UInt16}

/-! ### Writing a text -/

theorem and_or_eq (n i a : ℕ) : n &&& (2 ^ i - 1) ||| 2 ^ i * a = 2 ^ i * a + n % 2 ^ i := by
  rw [Nat.and_two_pow_sub_one_eq_mod, Nat.or_comm,
    Nat.two_pow_add_eq_or_of_lt (Nat.mod_lt _ (Nat.two_pow_pos i))]

theorem charBytes_eq (h : v < 0x200000) : charBytes v = Utf8.encodeCode v := by
  have h₃ : ∀ n, n &&& 0x07 ||| 0xF0 = 0xF0 + n % 8 := fun n => and_or_eq n 3 30
  have h₄ : ∀ n, n &&& 0x0F ||| 0xE0 = 0xE0 + n % 16 := fun n => and_or_eq n 4 14
  have h₅ : ∀ n, n &&& 0x1F ||| 0xC0 = 0xC0 + n % 32 := fun n => and_or_eq n 5 6
  have h₆ : ∀ n, n &&& 0x3F ||| 0x80 = 0x80 + n % 64 := fun n => and_or_eq n 6 2
  rw [charBytes, Utf8.encodeCode]
  simp only [h₃, h₄, h₅, h₆, Nat.shiftRight_eq_div_pow, Nat.reducePow]
  split_ifs <;> first | rfl | omega | skip
  · rw [Nat.mod_eq_of_lt (a := v / 64) (by omega)]
  · rw [Nat.mod_eq_of_lt (a := v / 4096) (by omega)]
  · rw [Nat.mod_eq_of_lt (a := v / 262144) (by omega)]

/-- The characters that a text is taken apart into. -/
def charCodes : JsString → Option (List ℕ)
  | [] => some []
  | c :: cs =>
    if 0xD800 ≤ c.toNat ∧ c.toNat ≤ 0xDBFF then
      match cs with
      | [] => none
      | low :: cs => (charCodes cs).map (leadCode c low :: ·)
    else (charCodes cs).map (c.toNat :: ·)

theorem leadCode_eq (c low : UInt16) :
    leadCode c low = (c.toNat - 0xD800) * 0x400 + 0x2400 + low.toNat := by
  have h : leadCode c low = (c.toNat - 0xD800) * 2 ^ 10 + 0x10000 + low.toNat - 0xDC00 := by
    unfold leadCode
    exact congrArg (fun n => n + 0x10000 + low.toNat - 0xDC00) (Nat.shiftLeft_eq _ 10)
  omega

theorem leadCode_lt (c low : UInt16) (hc : c.toNat ≤ 0xDBFF) : leadCode c low < 0x200000 := by
  have hl := low.toNat_lt
  rw [leadCode_eq]
  omega

theorem charCodes_lt (h : charCodes s = some vs) : ∀ v ∈ vs, v < 0x200000 := by
  fun_induction charCodes s generalizing vs with
  | case1 => cases h; simp
  | case2 => cases h
  | case3 c hc low cs ih =>
    obtain ⟨ws, hw, rfl⟩ := Option.map_eq_some_iff.mp h
    exact List.forall_mem_cons.mpr ⟨leadCode_lt c low hc.2, ih hw⟩
  | case4 c cs hc ih =>
    obtain ⟨ws, hw, rfl⟩ := Option.map_eq_some_iff.mp h
    exact List.forall_mem_cons.mpr ⟨by have := c.toNat_lt; omega, ih hw⟩

theorem stringToUTF8_of_none (h : charCodes s = none) :
    ∃ e, ∀ output pos, stringToUTF8 s output pos = .error e := by
  fun_induction charCodes s with
  | case1 => cases h
  | case2 c hc => exact ⟨_, fun _ _ => by simp only [stringToUTF8, if_pos hc]; rfl⟩
  | case3 c hc low cs ih =>
    obtain ⟨e, he⟩ := ih (Option.map_eq_none_iff.mp h)
    refine ⟨e, fun output pos => ?_⟩
    simp only [stringToUTF8, if_pos hc]
    exact he _ _
  | case4 c cs hc ih =>
    obtain ⟨e, he⟩ := ih (Option.map_eq_none_iff.mp h)
    refine ⟨e, fun output pos => ?_⟩
    rw [stringToUTF8.eq_def]
    simp only [if_neg hc]
    exact he _ _

theorem stringToUTF8_of_some (h : charCodes s = some vs) (output : List UInt8) (pos : ℕ) :
    stringToUTF8 s output pos = .ok (Buffer.write output pos (vs.flatMap Utf8.encodeCode)) := by
  fun_induction charCodes s generalizing vs output pos with
  | case1 => cases h; rfl
  | case2 => cases h
  | case3 c hc low cs ih =>
    obtain ⟨ws, hw, rfl⟩ := Option.map_eq_some_iff.mp h
    simp only [stringToUTF8, if_pos hc]
    rw [charBytes_eq (leadCode_lt c low hc.2), List.flatMap_cons, Buffer.write_append]
    exact ih hw _ _
  | case4 c cs hc ih =>
    obtain ⟨ws, hw, rfl⟩ := Option.map_eq_some_iff.mp h
    rw [stringToUTF8.eq_def]
    simp only [if_neg hc]
    rw [charBytes_eq (by have := c.toNat_lt; omega), List.flatMap_cons, Buffer.write_append]
    exact ih hw _ _

/-! ### Reading it -/

def units (v : ℕ) : JsString := fromCharCode (some v)

theorem parseUTF8From_append (as bs : List UInt8) (n : ℕ) :
    parseUTF8From as.length (as ++ bs) (as.length + n) = parseUTF8From 0 bs n := by
  induction as with
  | nil => rw [List.length_nil, Nat.zero_add, List.nil_append]
  | cons a as ih => rw [List.length_cons, Nat.add_right_comm, parseUTF8From]; exact ih

theorem parseUTF8From_char {a : UInt8} {m : Option ℤ} (as : List UInt8)
    (h : parseChar (a :: (as ++ bs)) = .ok (m, as.length)) (n : ℕ) :
    parseUTF8From 0 (a :: (as ++ bs)) (as.length + 1 + n) =
      (parseUTF8From 0 bs n).map (fromCharCode m ++ ·) := by
  rw [Nat.add_right_comm, parseUTF8From, h, List.tail_cons]
  change (parseUTF8From as.length (as ++ bs) (as.length + n) >>= fun s => _) = _
  rw [parseUTF8From_append]
  cases parseUTF8From 0 bs n <;> rfl

theorem parseChar_one {a : UInt8} (ha : a.toNat < 0x80) (bs : List UInt8) :
    parseChar (a :: bs) = .ok (some a.toNat, 0) := by
  have h : (a.toNat : ℤ) < 128 := by omega
  simp only [parseChar, List.getElem?_cons_zero, if_pos h]

theorem parseChar_two {a b : UInt8} (ha : 0x80 ≤ a.toNat) (ha' : a.toNat < 0xE0)
    (hb : 0x80 ≤ b.toNat) (bs : List UInt8) :
    parseChar (a :: b :: bs) = .ok (some (64 * ((a.toNat : ℤ) - 0xC0) + (b.toNat - 128)), 1) := by
  have h : ¬ (a.toNat : ℤ) < 128 := by omega
  have h' : (a.toNat : ℤ) < 0xE0 := by omega
  have hb' : ¬ ((b.toNat : ℤ) - 128 < 0) := by omega
  simp only [parseChar, List.getElem?_cons_zero, List.getElem?_cons_succ, if_neg h, if_pos h',
    tailByte, Option.map_some, Option.any_some, decide_eq_true_eq, if_neg hb']
  rfl

theorem parseChar_three {a b c : UInt8} (ha : 0xE0 ≤ a.toNat) (ha' : a.toNat < 0xF0)
    (hb : 0x80 ≤ b.toNat) (hc : 0x80 ≤ c.toNat) (bs : List UInt8) :
    parseChar (a :: b :: c :: bs) = .ok (some (4096 * ((a.toNat : ℤ) - 0xE0) +
      64 * (b.toNat - 128) + (c.toNat - 128)), 2) := by
  have h : ¬ (a.toNat : ℤ) < 128 := by omega
  have h₂ : ¬ (a.toNat : ℤ) < 0xE0 := by omega
  have h' : (a.toNat : ℤ) < 0xF0 := by omega
  have hb' : ¬ ((b.toNat : ℤ) - 128 < 0) := by omega
  have hc' : ¬ ((c.toNat : ℤ) - 128 < 0) := by omega
  simp only [parseChar, List.getElem?_cons_zero, List.getElem?_cons_succ, if_neg h, if_neg h₂,
    if_pos h', tailByte, Option.map_some, Option.any_some, decide_eq_true_eq, if_neg hb',
    if_neg hc']
  rfl

theorem parseChar_four {a b c d : UInt8} (ha : 0xF0 ≤ a.toNat) (ha' : a.toNat < 0xF8)
    (hb : 0x80 ≤ b.toNat) (hc : 0x80 ≤ c.toNat) (hd : 0x80 ≤ d.toNat) (bs : List UInt8) :
    parseChar (a :: b :: c :: d :: bs) = .ok (some (262144 * ((a.toNat : ℤ) - 0xF0) +
      4096 * (b.toNat - 128) + 64 * (c.toNat - 128) + (d.toNat - 128)), 3) := by
  have h : ¬ (a.toNat : ℤ) < 128 := by omega
  have h₂ : ¬ (a.toNat : ℤ) < 0xE0 := by omega
  have h₃ : ¬ (a.toNat : ℤ) < 0xF0 := by omega
  have h' : (a.toNat : ℤ) < 0xF8 := by omega
  have hb' : ¬ ((b.toNat : ℤ) - 128 < 0) := by omega
  have hc' : ¬ ((c.toNat : ℤ) - 128 < 0) := by omega
  have hd' : ¬ ((d.toNat : ℤ) - 128 < 0) := by omega
  simp only [parseChar, List.getElem?_cons_zero, List.getElem?_cons_succ, if_neg h, if_neg h₂,
    if_neg h₃, if_pos h', tailByte, Option.map_some, Option.any_some, decide_eq_true_eq,
    if_neg hb', if_neg hc', if_neg hd']
  rfl

theorem parseUTF8From_encodeCode (hv : v < 0x200000) (bs : List UInt8) (n : ℕ) :
    parseUTF8From 0 (Utf8.encodeCode v ++ bs) ((Utf8.encodeCode v).length + n) =
      (parseUTF8From 0 bs n).map (units v ++ ·) := by
  have byte : ∀ {m : ℕ}, m < 256 → (UInt8.ofNat m).toNat = m := Utf8.toNat_ofNat_of_lt
  rw [Utf8.encodeCode]
  split_ifs with h₁ h₂ h₃
  · refine parseUTF8From_char [] ?_ n
    rw [parseChar_one (by rw [byte (by omega)]; exact h₁), byte (by omega)]
    rfl
  · refine parseUTF8From_char [_] ?_ n
    have ha := byte (m := 0xC0 + v / 64) (by omega)
    have hb := byte (m := 0x80 + v % 64) (by omega)
    rw [List.cons_append, parseChar_two (by omega) (by omega) (by omega), ha, hb]
    congr 3
    omega
  · refine parseUTF8From_char [_, _] ?_ n
    have ha := byte (m := 0xE0 + v / 4096) (by omega)
    have hb := byte (m := 0x80 + v / 64 % 64) (by omega)
    have hc := byte (m := 0x80 + v % 64) (by omega)
    rw [List.cons_append, List.cons_append,
      parseChar_three (by omega) (by omega) (by omega) (by omega), ha, hb, hc]
    congr 3
    omega
  · refine parseUTF8From_char [_, _, _] ?_ n
    have ha := byte (m := 0xF0 + v / 262144) (by omega)
    have hb := byte (m := 0x80 + v / 4096 % 64) (by omega)
    have hc := byte (m := 0x80 + v / 64 % 64) (by omega)
    have hd := byte (m := 0x80 + v % 64) (by omega)
    rw [List.cons_append, List.cons_append, List.cons_append,
      parseChar_four (by omega) (by omega) (by omega) (by omega) (by omega), ha, hb, hc, hd]
    congr 3
    omega

theorem parseUTF8From_flatMap (h : ∀ v ∈ vs, v < 0x200000) (bs : List UInt8) :
    parseUTF8From 0 (vs.flatMap Utf8.encodeCode ++ bs) (vs.flatMap Utf8.encodeCode).length =
      .ok (vs.flatMap units) := by
  induction vs with
  | nil => rfl
  | cons v vs ih =>
    obtain ⟨hv, hvs⟩ := List.forall_mem_cons.mp h
    rw [List.flatMap_cons, List.length_append, List.append_assoc, parseUTF8From_encodeCode hv,
      ih hvs]
    rfl

theorem parseUTF8_flatMap (h : ∀ v ∈ vs, v < 0x200000) :
    parseUTF8 (vs.flatMap Utf8.encodeCode) 0 (vs.flatMap Utf8.encodeCode).length =
      .ok (vs.flatMap units) := by
  have hp := parseUTF8From_flatMap h []
  rwa [List.append_nil] at hp

/-! ### A text and what is read back -/

theorem units_unit (u : UInt16) : units u.toNat = [u] := by
  have hu := u.toNat_lt
  have h : ¬ (0xFFFF : ℤ) < u.toNat := by omega
  rw [units, fromCharCode, if_neg h, UInt16.ofInt, ofNat_eq (u := u) (by omega)]

theorem units_of_le (h : 0x10000 ≤ v) :
    units v =
      [.ofNat (0xD800 + (v - 0x10000) / 0x400), .ofNat (0xDC00 + (v - 0x10000) % 0x400)] := by
  have h' : (0xFFFF : ℤ) < v := by omega
  have hm : (v - 0x10000) &&& 0x3FF = (v - 0x10000) % 0x400 :=
    Nat.and_two_pow_sub_one_eq_mod _ 10
  rw [units, fromCharCode, if_pos h']
  simp only [Int.toNat_natCast, hm, Nat.shiftRight_eq_div_pow, Nat.reducePow]

theorem length_encodeCode_le (v : ℕ) : (Utf8.encodeCode v).length ≤ 4 := by
  rw [Utf8.encodeCode]
  split_ifs <;> simp

/-- The length never falls short of what is written. -/
theorem length_le_UTF8Length (h : charCodes s = some vs) :
    (vs.flatMap Utf8.encodeCode).length ≤ UTF8Length s := by
  fun_induction charCodes s generalizing vs with
  | case1 => cases h; rfl
  | case2 => cases h
  | case3 c hc low cs ih =>
    obtain ⟨ws, hw, rfl⟩ := Option.map_eq_some_iff.mp h
    have hl := length_encodeCode_le (leadCode c low)
    rw [UTF8Length, if_pos (by omega), if_pos hc, List.flatMap_cons, List.length_append]
    have := ih hw
    omega
  | case4 c cs hc ih =>
    obtain ⟨ws, hw, rfl⟩ := Option.map_eq_some_iff.mp h
    have := ih hw
    have hu := c.toNat_lt
    rw [UTF8Length.eq_def, List.flatMap_cons, List.length_append, Utf8.encodeCode]
    simp only [if_neg hc]
    split_ifs <;> simp only [List.length_cons, List.length_nil] <;> omega

theorem lead_iff : Lead u ↔ 0xD800 ≤ u.toNat ∧ u.toNat ≤ 0xDBFF := by
  rw [Lead]
  omega

theorem units_leadCode {low : UInt16} (hu : Lead u) (hl : Trail low) :
    units (leadCode u low) = [u, low] := by
  obtain ⟨hu₁, hu₂⟩ := hu
  obtain ⟨hl₁, hl₂⟩ := hl
  have h := leadCode_eq u low
  rw [units_of_le (by omega), ofNat_eq (u := u) (by omega), ofNat_eq (u := low) (by omega)]

theorem length_encodeCode_of_le (h : 0x10000 ≤ v) : (Utf8.encodeCode v).length = 4 := by
  rw [Utf8.encodeCode, if_neg (by omega), if_neg (by omega), if_neg (by omega)]
  rfl

theorem length_encodeCode_unit (h : ¬ Lead u) :
    UTF8Length (u :: s) = (Utf8.encodeCode u.toNat).length + UTF8Length s := by
  have hu := u.toNat_lt
  rw [lead_iff] at h
  rw [UTF8Length.eq_def, Utf8.encodeCode]
  simp only [if_neg h]
  split_ifs <;> simp only [List.length_cons, List.length_nil] <;> omega

theorem charCodes_unit (h : ¬ Lead u) :
    charCodes (u :: s) = (charCodes s).map (u.toNat :: ·) := by
  rw [lead_iff] at h
  rw [charCodes.eq_def]
  simp only [if_neg h]

theorem charCodes_pair {low : UInt16} (h : Lead u) :
    charCodes (u :: low :: s) = (charCodes s).map (leadCode u low :: ·) := by
  rw [lead_iff] at h
  rw [charCodes.eq_def]
  simp only [if_pos h]

/-- A paired text is written completely and read back. -/
theorem charCodes_of_paired (h : Paired s) :
    ∃ vs, charCodes s = some vs ∧ (vs.flatMap Utf8.encodeCode).length = UTF8Length s ∧
      vs.flatMap units = s := by
  induction h with
  | nil => exact ⟨[], rfl, rfl, rfl⟩
  | @one u us hu _ ih =>
    obtain ⟨vs, hvs, hl, he⟩ := ih
    refine ⟨u.toNat :: vs, by rw [charCodes_unit hu, hvs]; rfl, ?_, ?_⟩
    · rw [List.flatMap_cons, List.length_append, hl, length_encodeCode_unit hu]
    · rw [List.flatMap_cons, he, units_unit]
      rfl
  | @pair u low us hu hlow _ ih =>
    obtain ⟨vs, hvs, hl, he⟩ := ih
    have hc : 0x10000 ≤ leadCode u low := by
      have := leadCode_eq u low
      obtain ⟨hu₁, -⟩ := hu
      obtain ⟨hl₁, -⟩ := hlow
      omega
    refine ⟨leadCode u low :: vs, by rw [charCodes_pair hu, hvs]; rfl, ?_, ?_⟩
    · have hu' := lead_iff.mp hu
      rw [List.flatMap_cons, List.length_append, hl, length_encodeCode_of_le hc, UTF8Length,
        if_pos (by omega), if_pos hu', Nat.add_comm]
    · rw [List.flatMap_cons, he, units_leadCode hu hlow]
      rfl

/-- A unit that stands neither for a gap nor for the end of a pair. -/
def solid (u : UInt16) : Bool := decide (u ≠ 0 ∧ ¬ Trail u)

theorem countP_units_leadCode_le (u low : UInt16) :
    (units (leadCode u low)).countP solid ≤ 1 := by
  by_cases h : 0x10000 ≤ leadCode u low
  · have ht : solid (.ofNat (0xDC00 + (leadCode u low - 0x10000) % 0x400)) = false :=
      decide_eq_false fun hs => hs.2 (trail_ofNat (Nat.mod_lt _ (by decide)))
    rw [units_of_le h, List.countP_cons, List.countP_cons_of_neg (by rw [ht]; decide)]
    split_ifs <;> decide
  · have hn : ¬ (0xFFFF : ℤ) < (leadCode u low : ℕ) := by omega
    rw [units, fromCharCode, if_neg hn]
    exact List.countP_le_length

theorem countP_units_le (h : charCodes s = some vs) :
    (vs.flatMap units).countP solid ≤ s.countP solid := by
  fun_induction charCodes s generalizing vs with
  | case1 => cases h; rfl
  | case2 => cases h
  | case3 c hc low cs ih =>
    obtain ⟨ws, hw, rfl⟩ := Option.map_eq_some_iff.mp h
    have hs : solid c = true := decide_eq_true ⟨fun h0 => by
      rw [h0] at hc
      exact absurd hc.1 (by decide), (lead_iff.mpr hc).not_trail⟩
    have := countP_units_leadCode_le c low
    have := ih hw
    rw [List.flatMap_cons, List.countP_append, List.countP_cons_of_pos hs, List.countP_cons]
    omega
  | case4 c cs hc ih =>
    obtain ⟨ws, hw, rfl⟩ := Option.map_eq_some_iff.mp h
    have := ih hw
    rw [List.flatMap_cons, units_unit, List.singleton_append, List.countP_cons, List.countP_cons]
    omega

/-- A lead without its trail makes a different text. -/
theorem paired_of_units (h : charCodes s = some vs)
    (he : vs.flatMap units ++ List.replicate k 0 = s) : Paired s := by
  fun_induction charCodes s generalizing vs with
  | case1 => exact .nil
  | case2 => cases h
  | case3 c hc low cs ih =>
    obtain ⟨ws, hw, rfl⟩ := Option.map_eq_some_iff.mp h
    have hl := lead_iff.mpr hc
    rw [List.flatMap_cons, List.append_assoc] at he
    by_cases hv : 0x10000 ≤ leadCode c low
    · rw [units_of_le hv] at he
      obtain ⟨-, he⟩ := List.cons.inj he
      obtain ⟨hlow, he⟩ := List.cons.inj he
      have ht : Trail low := hlow ▸ trail_ofNat (Nat.mod_lt _ (by decide))
      exact .pair hl ht (ih hw he)
    · -- three bytes and a zero at the end: the text moves by one unit
      have hu := units_unit (.ofNat (leadCode c low))
      rw [toNat_ofNat_of_lt (by omega)] at hu
      rw [hu] at he
      obtain ⟨hc', he⟩ := List.cons.inj he
      have hn : leadCode c low = c.toNat :=
        (toNat_ofNat_of_lt (by omega)).symm.trans (congrArg UInt16.toNat hc')
      have hcode := leadCode_eq c low
      have hs : solid low = true := by
        refine decide_eq_true ⟨fun h0 => ?_, fun ht => ?_⟩
        · have : low.toNat = 0 := by rw [h0]; rfl
          omega
        · obtain ⟨ht, -⟩ := ht
          omega
      have h₀ : (List.replicate k (0 : UInt16)).countP solid = 0 :=
        List.countP_eq_zero.mpr fun a ha => by
          rw [(List.mem_replicate.mp ha).2]
          decide
      have h₁ := congrArg (List.countP solid) he
      have h₂ := countP_units_le hw
      rw [List.append_eq, List.nil_append, List.countP_append, h₀,
        List.countP_cons_of_pos hs] at h₁
      omega
  | case4 c cs hc ih =>
    obtain ⟨ws, hw, rfl⟩ := Option.map_eq_some_iff.mp h
    rw [List.flatMap_cons, units_unit] at he
    exact .one (fun hl => hc (lead_iff.mp hl)) (ih hw (List.cons.inj he).2)

/-- The bytes of a text: its characters, and zeros up to the length that was counted. -/
theorem payloadBytes_text (h : charCodes s = some vs) :
    (Payload.text s).payloadBytes =
      .ok (Buffer.filled 0 (UTF8Length s) (vs.flatMap Utf8.encodeCode)) := by
  have hl := length_le_UTF8Length h
  have hw : Buffer.write (Buffer.filled 0 (UTF8Length s) []) ([] : List UInt8).length
      (vs.flatMap Utf8.encodeCode) =
      Buffer.filled 0 (UTF8Length s) ([] ++ vs.flatMap Utf8.encodeCode) :=
    Buffer.write_filled (by rwa [List.length_nil, Nat.zero_add])
  rw [Payload.payloadBytes, stringToUTF8_of_some h, ← Buffer.filled_nil]
  exact congrArg _ hw

theorem payloadString_filled (h : ∀ v ∈ vs, v < 0x200000) (n : ℕ) :
    (Payload.bytes (Buffer.filled 0 n (vs.flatMap Utf8.encodeCode))).payloadString =
      .ok (vs.flatMap units ++ List.replicate (n - (vs.flatMap Utf8.encodeCode).length) 0) := by
  have zeros : ∀ k, (List.replicate k 0).flatMap Utf8.encodeCode = List.replicate k 0 := by
    intro k
    induction k with
    | zero => rfl
    | succ k ih => rw [List.replicate_succ, List.flatMap_cons, ih]; rfl
  have gaps : ∀ k, (List.replicate k 0).flatMap units = List.replicate k 0 := by
    intro k
    induction k with
    | zero => rfl
    | succ k ih => rw [List.replicate_succ, List.flatMap_cons, ih]; rfl
  rw [Buffer.filled, ← zeros, ← List.flatMap_append, ← gaps, ← List.flatMap_append]
  refine parseUTF8_flatMap fun v hv => ?_
  rcases List.mem_append.mp hv with hv | hv
  · exact h v hv
  · rw [(List.mem_replicate.mp hv).2]
    decide

/-! ### Well-formed texts -/

theorem units_char (c : Char) : units c.toNat = encodeChar c := by
  have hc : c.toNat < 0xD800 ∨ 0xDFFF < c.toNat ∧ c.toNat < 0x110000 := c.valid
  rw [encodeChar]
  split_ifs with h
  · have hu := units_unit (.ofNat c.toNat)
    rwa [toNat_ofNat_of_lt h] at hu
  · exact units_of_le (by omega)

theorem encode_flatMap (cs : List Char) :
    Utf8.encode cs = (cs.map Char.toNat).flatMap Utf8.encodeCode ∧
      encode cs = (cs.map Char.toNat).flatMap units ∧
      ∀ v ∈ cs.map Char.toNat, v < 0x200000 := by
  refine ⟨by rw [List.flatMap_map]; rfl, ?_, fun v hv => ?_⟩
  · rw [List.flatMap_map, encode]
    exact List.flatMap_congr fun c _ => (units_char c).symm
  · obtain ⟨c, -, rfl⟩ := List.mem_map.mp hv
    have hc : c.toNat < 0xD800 ∨ 0xDFFF < c.toNat ∧ c.toNat < 0x110000 := c.valid
    omega

/-- What encodes a text in UTF-8 is read as its UTF-16 encoding, wherever it stands. -/
theorem parseUTF8_encode (as bs : List UInt8) (cs : List Char) :
    parseUTF8 (as ++ (Utf8.encode cs ++ bs)) as.length (Utf8.encode cs).length =
      .ok (encode cs) := by
  obtain ⟨h₁, h₂, h₃⟩ := encode_flatMap cs
  rw [parseUTF8, List.drop_left, h₁, h₂]
  exact parseUTF8From_flatMap h₃ bs

theorem payloadString_encode (cs : List Char) :
    (Payload.bytes (Utf8.encode cs)).payloadString = .ok (encode cs) := by
  have hp := parseUTF8_encode [] [] cs
  rwa [List.append_nil] at hp

theorem leadCode_ofNat (h : n < 0x100000) :
    leadCode (.ofNat (0xD800 + n / 0x400)) (.ofNat (0xDC00 + n % 0x400)) = n + 0x10000 := by
  have h₁ := toNat_ofNat_of_lt (n := 0xD800 + n / 0x400) (by omega)
  have h₂ := toNat_ofNat_of_lt (n := 0xDC00 + n % 0x400) (by omega)
  rw [leadCode_eq]
  omega

theorem charCodes_encode (cs : List Char) :
    charCodes (encode cs) = some (cs.map Char.toNat) := by
  induction cs with
  | nil => rfl
  | cons c cs ih =>
    have hc : c.toNat < 0xD800 ∨ 0xDFFF < c.toNat ∧ c.toNat < 0x110000 := c.valid
    rw [encode] at ih
    rw [encode, List.flatMap_cons, encodeChar, List.map_cons]
    split_ifs with h
    · have hu := toNat_ofNat_of_lt h
      have hl : ¬ Lead (.ofNat c.toNat) := fun hl => by
        rw [Lead, hu] at hl
        omega
      rw [List.singleton_append, charCodes_unit hl, ih, hu]
      rfl
    · have hl : Lead (.ofNat (0xD800 + (c.toNat - 0x10000) / 0x400)) := lead_ofNat (by omega)
      rw [List.cons_append, List.singleton_append, charCodes_pair hl, ih,
        leadCode_ofNat (by omega), Nat.sub_add_cancel (by omega)]
      rfl

theorem payloadBytes_encode (cs : List Char) :
    (Payload.text (encode cs)).payloadBytes = .ok (Utf8.encode cs) := by
  have hc := charCodes_encode cs
  obtain ⟨vs, hvs, hl, -⟩ := charCodes_of_paired (wellFormed_iff.mpr ⟨cs, rfl⟩).paired
  cases hc.symm.trans hvs
  rw [payloadBytes_text hc, Buffer.filled_of_le (Nat.le_of_eq hl.symm), List.flatMap_map]
  rfl

end ImProxy.Client
