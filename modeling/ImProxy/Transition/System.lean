import Mathlib.Data.List.Basic
import Mathlib.Tactic.Common

/-! # Transition systems and conditioned runs

A system is an initial state and a partial step function, so that runs can be
executed. A path is a run whose steps all satisfy a condition on the state and
the action taken there; reachability is the unconditional case. Invariants are
proved once per step and carried along every path.
-/

set_option autoImplicit false

namespace Transition

/-- An initial state and an executable step, `none` where an action is not enabled. -/
structure System (σ α : Type*) where
  init : σ
  step : α → σ → Option σ

/-- A condition on the steps of a run: the state before the step and its action. -/
abbrev Condition (σ α : Type*) := σ → α → Prop

namespace System

variable {σ α : Type*} (M : System σ α)

/-- Execute a list of actions, failing at the first one that is not enabled. -/
def run : List α → σ → Option σ
  | [], s => some s
  | a :: as, s => (M.step a s).bind (run as)

def runWhere (C : Condition σ α) [∀ s, DecidablePred (C s)] : List α → σ → Option σ
  | [], s => some s
  | a :: as, s => if C s a then (M.step a s).bind (runWhere C as) else none

/-- A run from one state to another whose steps all satisfy the condition. -/
inductive Path (C : Condition σ α) (s : σ) : List α → σ → Prop

  | nil : Path C s [] s

  | snoc {as : List α} {a : α} {t u : σ} : Path C s as t → C t a → M.step a t = some u →
      Path C s (as ++ [a]) u

/-- The states that runs from the initial state reach under a condition on their steps. -/
def ReachableWhere (C : Condition σ α) (s : σ) : Prop := ∃ as, M.Path C M.init as s

def always : Condition σ α := fun _ _ => True

/-- The states of all runs from the initial state. -/
def Reachable (s : σ) : Prop := M.ReachableWhere always s

variable {M} {C D : Condition σ α} {s t u : σ} {as bs : List α} {a : α}

theorem Path.append (h : M.Path C s as t) (h' : M.Path C t bs u) : M.Path C s (as ++ bs) u := by
  induction h' with
  | nil => simpa using h
  | snoc _ hc hs ih => rw [← List.append_assoc]; exact .snoc ih hc hs

theorem Path.single (hc : C s a) (hs : M.step a s = some t) : M.Path C s [a] t := .snoc .nil hc hs

theorem Path.cons (hc : C s a) (hs : M.step a s = some t) (h : M.Path C t as u) :
    M.Path C s (a :: as) u := (Path.single hc hs).append h

theorem Path.mono (hCD : ∀ s a, C s a → D s a) (h : M.Path C s as t) : M.Path D s as t := by
  induction h with
  | nil => exact .nil
  | snoc _ hc hs ih => exact .snoc ih (hCD _ _ hc) hs

theorem Path.forget (h : M.Path C s as t) : M.Path always s as t := h.mono fun _ _ _ => trivial

/-- A property that every step of a path preserves holds at its end. -/
theorem Path.invariant {P : σ → Prop} (h : M.Path C s as t) (hs : P s)
    (step : ∀ a s t, P s → C s a → M.step a s = some t → P t) : P t := by
  induction h with
  | nil => exact hs
  | snoc _ hc ht ih => exact step _ _ _ ih hc ht

/-- A property of the actions taken so far and the state they led to. -/
theorem Path.history {P : List α → σ → Prop} (h : M.Path C s as t) (hs : P [] s)
    (step : ∀ as a t u, M.Path C s as t → P as t → C t a → M.step a t = some u →
      P (as ++ [a]) u) : P as t := by
  induction h with
  | nil => exact hs
  | snoc hp hc ht ih => exact step _ _ _ _ hp ih hc ht

theorem ReachableWhere.init : M.ReachableWhere C M.init := ⟨[], .nil⟩

theorem ReachableWhere.path (h : M.ReachableWhere C s) (hp : M.Path C s as t) :
    M.ReachableWhere C t := by
  obtain ⟨bs, hb⟩ := h
  exact ⟨bs ++ as, hb.append hp⟩

theorem ReachableWhere.step (h : M.ReachableWhere C s) (hc : C s a) (hs : M.step a s = some t) :
    M.ReachableWhere C t := h.path (.single hc hs)

theorem ReachableWhere.reachable (h : M.ReachableWhere C s) : M.Reachable s := by
  obtain ⟨as, ha⟩ := h
  exact ⟨as, ha.forget⟩

/-- The actions of a path determine where it leads. -/
theorem Path.functional (h : M.Path C s as t) (h' : M.Path D s as u) : t = u := by
  induction h generalizing u with
  | nil =>
    generalize hn : ([] : List α) = bs at h'
    cases h' with
    | nil => rfl
    | snoc => simp at hn
  | @snoc as a v w _ _ hw ih =>
    generalize hn : as ++ [a] = bs at h'
    cases h' with
    | nil => simp at hn
    | snoc h' _ hu =>
      obtain ⟨rfl, ha⟩ := List.append_inj' hn rfl
      cases List.singleton_inj.mp ha
      cases ih h'
      exact Option.some.inj (hw.symm.trans hu)

theorem Path.of_single (h : M.Path C s [a] t) : C s a ∧ M.step a s = some t := by
  generalize hn : [a] = as at h
  cases h with
  | nil => simp at hn
  | @snoc as b u _ h hc hs =>
    obtain ⟨rfl, ha⟩ := List.append_inj' ((List.nil_append [a]).trans hn) rfl
    cases List.singleton_inj.mp ha
    cases h.functional (.nil : M.Path C s [] s)
    exact ⟨hc, hs⟩

theorem Path.split (h : M.Path C s (as ++ bs) t) :
    ∃ u, M.Path C s as u ∧ M.Path C u bs t := by
  generalize hn : as ++ bs = cs at h
  induction h generalizing bs with
  | nil =>
    obtain ⟨rfl, rfl⟩ := List.append_eq_nil_iff.mp hn
    exact ⟨s, .nil, .nil⟩
  | @snoc cs a v w hv hc hw ih =>
    rcases List.eq_nil_or_concat' bs with rfl | ⟨bs, b, rfl⟩
    · rw [List.append_nil] at hn
      exact ⟨w, hn ▸ .snoc hv hc hw, .nil⟩
    · rw [← List.append_assoc] at hn
      obtain ⟨hn, hb⟩ := List.append_inj' hn rfl
      obtain ⟨u, hu, hu'⟩ := ih hn
      cases List.singleton_inj.mp hb
      exact ⟨u, hu, .snoc hu' hc hw⟩

theorem Path.uncons (h : M.Path C s (a :: as) u) :
    ∃ t, C s a ∧ M.step a s = some t ∧ M.Path C t as u := by
  rw [← List.singleton_append] at h
  obtain ⟨t, ha, h⟩ := h.split
  obtain ⟨hc, ht⟩ := ha.of_single
  exact ⟨t, hc, ht, h⟩

theorem Path.and (h : M.Path C s as t) (h' : M.Path D s as t) :
    M.Path (fun s a => C s a ∧ D s a) s as t := by
  induction h with
  | nil => exact .nil
  | @snoc as a v w hv hc hw ih =>
    generalize hn : as ++ [a] = bs at h'
    cases h' with
    | nil => simp at hn
    | @snoc bs b u _ h' hd _ =>
      obtain ⟨rfl, ha⟩ := List.append_inj' hn rfl
      cases List.singleton_inj.mp ha
      cases hv.functional h'
      exact .snoc (ih h') ⟨hc, hd⟩ hw

theorem Path.reachable (h : M.Path C M.init as s) : M.Reachable s := ⟨as, h.forget⟩

theorem Reachable.step (h : M.Reachable s) (hs : M.step a s = some t) : M.Reachable t :=
  ReachableWhere.step h trivial hs

theorem Reachable.path (h : M.Reachable s) (hp : M.Path C s as t) : M.Reachable t :=
  ReachableWhere.path h hp.forget

/-- The invariant rule: a property of the initial state that every step from a reachable
state preserves holds in every reachable state. -/
theorem ReachableWhere.invariant {P : σ → Prop} (h : M.ReachableWhere C s) (hi : P M.init)
    (step : ∀ a s t, M.ReachableWhere C s → P s → C s a → M.step a s = some t → P t) : P s := by
  obtain ⟨as, ha⟩ := h
  refine ha.history (P := fun _ s => P s) hi ?_
  intro as a t u hp ht hc hs
  exact step a t u ⟨as, hp⟩ ht hc hs

theorem Reachable.invariant {P : σ → Prop} (h : M.Reachable s) (hi : P M.init)
    (step : ∀ a s t, M.Reachable s → P s → M.step a s = some t → P t) : P s :=
  ReachableWhere.invariant h hi fun a s t hr hp _ hs => step a s t hr hp hs

theorem Path.weaken (hCD : ∀ a s t, M.Reachable s → M.step a s = some t → C s a → D s a)
    (h : M.Path C M.init as s) : M.Path D M.init as s := by
  induction h with
  | nil => exact .nil
  | snoc hp hc hs ih => exact .snoc ih (hCD _ _ _ hp.reachable hs hc) hs

/-- When a property that steps keep exactly if they satisfy a condition holds all along a run. -/
theorem Path.everywhere_iff {P : σ → Prop} (h : M.Path always M.init as s) (hi : P M.init)
    (step : ∀ a s t, M.ReachableWhere C s → P s → M.step a s = some t → (P t ↔ C s a)) :
    (∀ bs t, bs <+: as → M.Path always M.init bs t → P t) ↔ M.Path C M.init as s := by
  constructor
  · intro hP
    induction h with
    | nil => exact .nil
    | @snoc as a t u ht _ hu ih =>
      have hC := ih fun bs v hbs hv => hP bs v (hbs.trans (List.prefix_append as [a])) hv
      have hPt := hP as t (List.prefix_append as [a]) ht
      have hPu := hP (as ++ [a]) u (List.prefix_refl _) (.snoc ht trivial hu)
      exact .snoc hC ((step a t u ⟨as, hC⟩ hPt hu).mp hPu) hu
  · rintro hC bs t ⟨cs, rfl⟩ ht
    obtain ⟨u, hu, -⟩ := hC.split
    obtain rfl := ht.functional hu
    exact ReachableWhere.invariant ⟨bs, hu⟩ hi
      fun a s t hr hs hc hst => (step a s t hr hs hst).mpr hc

theorem run_append (as bs : List α) (s : σ) :
    M.run (as ++ bs) s = (M.run as s).bind (M.run bs) := by
  induction as generalizing s with
  | nil => rfl
  | cons a as ih =>
    simp only [List.cons_append, run, Option.bind_assoc]
    exact congrArg _ (funext ih)

/-- Paths without a condition are exactly the runs that execute. -/
theorem path_iff_run : M.Path always s as t ↔ M.run as s = some t := by
  constructor
  · intro h
    induction h with
    | nil => rfl
    | snoc _ _ hs ih => simp [run_append, ih, run, hs]
  · intro h
    induction as generalizing s with
    | nil => cases h; exact .nil
    | cons a as ih =>
      obtain ⟨u, hu, h⟩ := Option.bind_eq_some_iff.mp h
      exact .cons trivial hu (ih h)

theorem path_of_isSome (h : (M.run as s).isSome = true) :
    M.Path always s as ((M.run as s).getD s) := by
  obtain ⟨t, ht⟩ := Option.isSome_iff_exists.mp h
  rw [path_iff_run, ht]
  rfl

theorem path_of_runWhere [∀ s, DecidablePred (C s)] (h : M.runWhere C as s = some t) :
    M.Path C s as t := by
  induction as generalizing s with
  | nil => cases h; exact .nil
  | cons a as ih =>
    simp only [runWhere] at h
    split_ifs at h with hc
    obtain ⟨u, hu, h⟩ := Option.bind_eq_some_iff.mp h
    exact .cons hc hu (ih h)

theorem run_of_runWhere [∀ s, DecidablePred (C s)] (h : M.runWhere C as s = some t) :
    M.run as s = some t := path_iff_run.mp (path_of_runWhere h).forget

end System

end Transition
