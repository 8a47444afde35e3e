import Mathlib.Logic.Function.Basic
import Mathlib.Tactic.Common

/-! # Monitors

A monitor is held by at most one thread. Each thread is somewhere in its code, and
exactly the thread that holds the monitor is inside the guarded part of it. What
the other threads do there is nothing, so the guarded code runs as if alone: its
thread is the current one, or the code is at rest.
-/

set_option autoImplicit false

namespace Concurrent

/-- The thread that holds a monitor. -/
abbrev Monitor (τ : Type*) := Option τ

namespace Monitor

variable {τ ι : Type*} {m : Monitor τ} {inside : ι → Prop} {frame : τ → ι} {rest f : ι} {t u : τ}

def Guards (m : Monitor τ) (inside : ι → Prop) (frame : τ → ι) : Prop :=
  ∀ t, inside (frame t) ↔ m = some t

/-- Where the guarded code stands, `rest` while nobody is inside. -/
def current (m : Monitor τ) (rest : ι) (frame : τ → ι) : ι := m.elim rest frame

@[simp] theorem current_some : current (some t) rest frame = frame t := rfl

@[simp] theorem current_none : current none rest frame = rest := rfl

namespace Guards

theorem holder (h : Guards m inside frame) (ht : inside (frame t)) : m = some t := (h t).mp ht

theorem unique (h : Guards m inside frame) (ht : inside (frame t)) (hu : inside (frame u)) :
    t = u := Option.some.inj ((h.holder ht).symm.trans (h.holder hu))

theorem current_eq (h : Guards m inside frame) (ht : inside (frame t)) :
    current m rest frame = frame t := by
  rw [h.holder ht, current_some]

section Update

variable [DecidableEq τ]

theorem stay (h : Guards m inside frame) (hf : inside f ↔ inside (frame t)) :
    Guards m inside (Function.update frame t f) := by
  intro u
  rw [Function.update_apply]
  split_ifs with hu
  · subst hu
    exact hf.trans (h u)
  · exact h u

theorem enter (h : Guards none inside frame) (hf : inside f) :
    Guards (some t) inside (Function.update frame t f) := by
  intro u
  rw [Function.update_apply]
  split_ifs with hu
  · exact iff_of_true hf (congrArg some hu.symm)
  · exact iff_of_false (fun hi => nomatch h.holder hi) fun he => hu (Option.some.inj he).symm

theorem exit (h : Guards m inside frame) (ht : inside (frame t)) (hf : ¬inside f) :
    Guards none inside (Function.update frame t f) := by
  intro u
  rw [Function.update_apply]
  split_ifs with hu
  · exact iff_of_false hf nofun
  · exact iff_of_false (fun hi => hu (h.unique hi ht)) nofun

theorem current_update (h : Guards m inside frame) (ht : ¬inside (frame t)) :
    current m rest (Function.update frame t f) = current m rest frame := by
  cases m with
  | none => rfl
  | some v =>
    have hv : v ≠ t := by
      rintro rfl
      exact ht ((h v).mpr rfl)
    exact Function.update_of_ne hv f frame

end Update

end Guards

end Monitor

end Concurrent
