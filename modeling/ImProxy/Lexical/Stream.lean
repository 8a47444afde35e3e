import Mathlib.Data.List.Basic
import Mathlib.Tactic.Common

/-! # Decoders of streams

A decoder takes a stream in pieces and gives out messages as they become complete.
What it gives out for a whole stream does not depend on where the stream is cut.
-/

set_option autoImplicit false

namespace Lexical

/-- A decoder with the state it keeps between two pieces of the stream. -/
structure StreamDecoder (σ β μ : Type*) where
  init : σ
  feed : σ → List β → List μ × σ

namespace StreamDecoder

variable {σ β μ : Type*} {D : StreamDecoder σ β μ} {s : σ}

/-- Two pieces are decoded as one. -/
structure Streaming (D : StreamDecoder σ β μ) : Prop where

  nil : ∀ s, D.feed s [] = ([], s)

  append : ∀ s bs cs, D.feed s (bs ++ cs) =
    ((D.feed s bs).1 ++ (D.feed (D.feed s bs).2 cs).1, (D.feed (D.feed s bs).2 cs).2)

def feedAll (D : StreamDecoder σ β μ) : σ → List (List β) → List μ × σ
  | s, [] => ([], s)
  | s, c :: cs =>
    ((D.feed s c).1 ++ (D.feedAll (D.feed s c).2 cs).1, (D.feedAll (D.feed s c).2 cs).2)

/-- The pieces are decoded as the stream they make up. -/
theorem Streaming.feedAll_eq (h : D.Streaming) (cs : List (List β)) :
    D.feedAll s cs = D.feed s cs.flatten := by
  induction cs generalizing s with
  | nil => exact (h.nil s).symm
  | cons c cs ih => rw [feedAll, ih, List.flatten_cons, h.append]

/-- A decoder that takes one letter at a time. -/
def ofStep (init : σ) (step : σ → β → List μ × σ) : StreamDecoder σ β μ where
  init := init
  feed := go
where
  go : σ → List β → List μ × σ
    | s, [] => ([], s)
    | s, b :: bs => ((step s b).1 ++ (go (step s b).2 bs).1, (go (step s b).2 bs).2)

theorem ofStep_streaming (init : σ) (step : σ → β → List μ × σ) :
    (ofStep init step).Streaming where
  nil _ := rfl
  append s bs cs := by
    induction bs generalizing s with
    | nil => rfl
    | cons b bs ih =>
      have ih : ofStep.go step (step s b).2 (bs ++ cs) = _ := ih _
      simp only [ofStep, List.cons_append, ofStep.go] at ih ⊢
      rw [ih, List.append_assoc]

end StreamDecoder

end Lexical
