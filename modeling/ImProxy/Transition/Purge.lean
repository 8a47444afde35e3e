import ImProxy.Transition.System

/-! # Runs with steps deleted

A purge walks along a run, with a memory of what it has passed, and deletes some of
its actions. If a relation between the states of the run and those of what remains is
kept by every step, deleted or not, then what remains is a run too.
-/

set_option autoImplicit false

namespace Transition

/-- Which actions of a run stay, given the state and the memory before them. -/
structure Purge (σ α μ : Type*) where

  keeps : σ → μ → α → Bool

  next : σ → μ → α → μ

namespace Purge

variable {σ α μ : Type*} (P : Purge σ α μ) (M : System σ α)

def remaining : σ → μ → List α → List α
  | _, _, [] => []
  | s, m, a :: as =>
    match M.step a s with
    | none => []
    | some t =>
      if P.keeps s m a then a :: remaining t (P.next s m a) as
      else remaining t (P.next s m a) as

/-- A relation between the states of a run, the memory and the states of what remains that every
step keeps. -/
structure Simulates (C : Condition σ α) (R : σ → μ → σ → Prop) : Prop where

  keep : ∀ {s m s' a t}, R s m s' → C s a → M.step a s = some t → P.keeps s m a = true →
    ∃ t', M.step a s' = some t' ∧ R t (P.next s m a) t'

  delete : ∀ {s m s' a t}, R s m s' → C s a → M.step a s = some t → P.keeps s m a = false →
    R t (P.next s m a) s'

variable {P M} {C : Condition σ α} {R : σ → μ → σ → Prop} {s t s' : σ} {m : μ} {as : List α}

/-- What remains of a run is a run that ends in a related state. -/
theorem Simulates.run (hR : P.Simulates M C R) (h : M.Path C s as t) (hs : R s m s') :
    ∃ m' t', M.run (P.remaining M s m as) s' = some t' ∧ R t m' t' := by
  induction as generalizing s m s' with
  | nil =>
    cases h.functional (D := C) .nil
    exact ⟨m, s', rfl, hs⟩
  | cons a as ih =>
    obtain ⟨u, hc, hu, h⟩ := h.uncons
    simp only [remaining, hu]
    split_ifs with hk
    · obtain ⟨u', hu', hs'⟩ := hR.keep hs hc hu hk
      obtain ⟨m', t', hrun, ht⟩ := ih h hs'
      exact ⟨m', t', by simp [System.run, hu', hrun], ht⟩
    · exact ih h (hR.delete hs hc hu (by simpa using hk))

end Purge

end Transition
