import Mathlib.Data.List.Infix

/-! # Streams of frames

A stream is made of frames one behind the other. What has come in of it so far is a number
of whole frames and a proper beginning of the next one.
-/

set_option autoImplicit false

namespace Lexical.Framing

variable {μ β : Type*} {code : μ → List β} {ms : List μ} {bs : List β}

/-- Nothing, or a proper beginning of the first of the frames to come. -/
inductive Partial (code : μ → List β) : List μ → List β → Prop

  | nil (ms : List μ) : Partial code ms []

  | cons {m : μ} {ms : List μ} {bs : List β} : bs <+: code m → bs ≠ code m →
      Partial code (m :: ms) bs

/-- A beginning of a stream of frames. -/
theorem exists_split (h : bs <+: ms.flatMap code) :
    ∃ ks ls rest, ms = ks ++ ls ∧ bs = ks.flatMap code ++ rest ∧ Partial code ls rest := by
  induction ms generalizing bs with
  | nil =>
    rw [List.flatMap_nil, List.prefix_nil] at h
    exact ⟨[], [], [], rfl, h, .nil []⟩
  | cons m ms ih =>
    by_cases hm : code m <+: bs
    · obtain ⟨cs, rfl⟩ := hm
      rw [List.flatMap_cons, List.prefix_append_right_inj] at h
      obtain ⟨ks, ls, rest, rfl, rfl, hp⟩ := ih h
      exact ⟨m :: ks, ls, rest, rfl, by rw [List.flatMap_cons, List.append_assoc], hp⟩
    · have hb : bs <+: code m := by
        rcases List.prefix_or_prefix_of_prefix h (List.prefix_append (code m) _) with hb | hb
        · exact hb
        · exact absurd hb hm
      refine ⟨[], m :: ms, bs, rfl, rfl, .cons hb fun he => hm ?_⟩
      rw [he]

end Lexical.Framing
