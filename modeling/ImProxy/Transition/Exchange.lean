import Mathlib.Data.List.Basic
import Mathlib.Tactic.Common

/-! # Exchanging independent steps

The runs of a labelled transition relation. If steps that are independent in a state
lead from it to the same states in either order, then runs that differ by exchanging
neighbours, each pair independent where it is exchanged, lead to the same states.
-/

set_option autoImplicit false

namespace Transition

variable {σ α : Type*}

def Runs (T : σ → α → σ → Prop) : σ → List α → σ → Prop
  | s, [], t => t = s
  | s, a :: as, u => ∃ t, T s a t ∧ Runs T t as u

/-- Orders of the same steps that differ by exchanges of independent neighbours. -/
inductive Exchange (T : σ → α → σ → Prop) (I : σ → α → α → Prop) (s : σ) :
    List α → List α → Prop

  | refl (as : List α) : Exchange T I s as as

  | symm {as bs : List α} : Exchange T I s as bs → Exchange T I s bs as

  | trans {as bs cs : List α} : Exchange T I s as bs → Exchange T I s bs cs →
      Exchange T I s as cs

  | swap {as bs : List α} {a b : α} : (∀ t, Runs T s as t → I t a b) →
      Exchange T I s (as ++ a :: b :: bs) (as ++ b :: a :: bs)

variable {T : σ → α → σ → Prop} {I : σ → α → α → Prop} {s t u : σ} {as bs : List α} {a b : α}

@[simp] theorem runs_nil : Runs T s [] t ↔ t = s := Iff.rfl

@[simp] theorem runs_cons : Runs T s (a :: as) u ↔ ∃ t, T s a t ∧ Runs T t as u := Iff.rfl

theorem runs_append : Runs T s (as ++ bs) u ↔ ∃ t, Runs T s as t ∧ Runs T t bs u := by
  induction as generalizing s with
  | nil => simp
  | cons a as ih =>
    simp only [List.cons_append, runs_cons, ih]
    constructor
    · rintro ⟨v, hv, t, ht, hu⟩
      exact ⟨t, ⟨v, hv, ht⟩, hu⟩
    · rintro ⟨t, ⟨v, hv, ht⟩, hu⟩
      exact ⟨v, hv, t, ht, hu⟩

theorem Runs.invariant {P : σ → Prop} (h : Runs T s as t) (hs : P s)
    (step : ∀ s a t, P s → T s a t → P t) : P t := by
  induction as generalizing s with
  | nil => exact h ▸ hs
  | cons a as ih =>
    obtain ⟨v, hv, ht⟩ := h
    exact ih ht (step s a v hs hv)

/-- The exchange rule. -/
theorem Exchange.runs_iff (h : Exchange T I s as bs)
    (comm : ∀ as t a b, Runs T s as t → I t a b →
      ∀ u, Runs T t [a, b] u ↔ Runs T t [b, a] u) (u : σ) :
    Runs T s as u ↔ Runs T s bs u := by
  induction h with
  | refl as => exact Iff.rfl
  | symm _ ih => exact ih.symm
  | trans _ _ ih ih' => exact ih.trans ih'
  | @swap as bs a b hI =>
    have pair : ∀ a b, Runs T s (as ++ a :: b :: bs) u ↔
        ∃ t, Runs T s as t ∧ ∃ v, Runs T t [a, b] v ∧ Runs T v bs u := by
      intro a b
      rw [show as ++ a :: b :: bs = as ++ ([a, b] ++ bs) from rfl, runs_append]
      simp only [runs_append]
    rw [pair, pair]
    refine exists_congr fun t => and_congr_right fun ht => ?_
    exact exists_congr fun v => and_congr_left fun _ => comm as t a b ht (hI t ht) v

end Transition
