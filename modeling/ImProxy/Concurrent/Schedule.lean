import Mathlib.Data.List.Nodup
import Mathlib.Tactic.Common

/-! # Scheduled tasks

An event loop keeps the tasks that are scheduled on it until it runs them or they are
cancelled. Each task has a number of its own, which serves as its future. A reference that
denotes every pending task denotes at most one.
-/

set_option autoImplicit false

namespace Concurrent

structure Scheduled (τ : Type*) where
  id : ℕ
  deadline : τ
  deriving DecidableEq, Repr

/-- The pending tasks of an event loop, whose numbers are below the next one. -/
structure Schedule (τ : Type*) where
  pending : List (Scheduled τ)
  next : ℕ
  lt_next : ∀ t ∈ pending, t.id < next
  nodup : (pending.map Scheduled.id).Nodup

namespace Schedule

variable {τ : Type*} (q : Schedule τ) {t : Scheduled τ} {d : τ} {i : ℕ} {r : Option ℕ}

def empty : Schedule τ where
  pending := []
  next := 0
  lt_next := by simp
  nodup := by simp

/-- Schedule a task for a time. Its future is the number that was next. -/
def add (d : τ) : Schedule τ where
  pending := q.pending ++ [⟨q.next, d⟩]
  next := q.next + 1
  lt_next t ht := by
    rcases List.mem_append.mp ht with ht | ht
    · exact Nat.lt_succ_of_lt (q.lt_next t ht)
    · rw [List.mem_singleton.mp ht]
      exact Nat.lt_succ_self q.next
  nodup := by
    rw [List.map_append, List.map_singleton]
    refine List.nodup_append.mpr ⟨q.nodup, List.nodup_singleton _, ?_⟩
    intro i hi j hj hij
    obtain ⟨t, ht, rfl⟩ := List.mem_map.mp hi
    rw [List.mem_singleton.mp hj] at hij
    exact Nat.ne_of_lt (q.lt_next t ht) hij

def remove (i : ℕ) : Schedule τ where
  pending := q.pending.filter (·.id ≠ i)
  next := q.next
  lt_next t ht := q.lt_next t (List.mem_of_mem_filter ht)
  nodup := q.nodup.sublist (List.filter_sublist.map _)

def isDue [LE τ] [DecidableLE τ] (i : ℕ) (now : τ) : Bool :=
  q.pending.any fun t => t.id = i && t.deadline ≤ now

@[simp] theorem pending_empty : (empty : Schedule τ).pending = [] := rfl

@[simp] theorem next_add : (q.add d).next = q.next + 1 := rfl

@[simp] theorem next_remove : (q.remove i).next = q.next := rfl

theorem pending_add : (q.add d).pending = q.pending ++ [⟨q.next, d⟩] := rfl

variable {q}

theorem mem_remove : t ∈ (q.remove i).pending ↔ t ∈ q.pending ∧ t.id ≠ i := by
  simp [remove]

theorem pending_remove_of_nil (h : q.pending = []) : (q.remove i).pending = [] := by
  simp [remove, h]

theorem pending_add_of_nil (h : q.pending = []) : (q.add d).pending = [⟨q.next, d⟩] := by
  simp [pending_add, h]

theorem isDue_iff [LE τ] [DecidableLE τ] {now : τ} :
    q.isDue i now = true ↔ ∃ t ∈ q.pending, t.id = i ∧ t.deadline ≤ now := by
  simp [isDue]

/-- Every pending task is the one that the reference denotes. -/
def Denotes (q : Schedule τ) (r : Option ℕ) : Prop := ∀ t ∈ q.pending, r = some t.id

namespace Denotes

theorem of_nil (h : q.pending = []) : q.Denotes r := by simp [Denotes, h]

theorem length_le (h : q.Denotes r) : q.pending.length ≤ 1 := by
  have hn := q.nodup
  unfold Denotes at h
  generalize q.pending = l at h hn ⊢
  match l with
  | [] => exact Nat.zero_le 1
  | [_] => exact Nat.le_refl 1
  | a :: b :: l =>
    have hab : a.id = b.id :=
      Option.some.inj ((h a List.mem_cons_self).symm.trans (h b (by simp)))
    exact absurd (by simp [hab]) (List.nodup_cons.mp hn).1

theorem nil_of_none (h : q.Denotes none) : q.pending = [] :=
  List.eq_nil_iff_forall_not_mem.mpr fun t ht => nomatch h t ht

theorem remove (h : q.Denotes (some i)) : (q.remove i).pending = [] := by
  refine List.eq_nil_iff_forall_not_mem.mpr fun t ht => ?_
  obtain ⟨ht, hi⟩ := mem_remove.mp ht
  exact hi (Option.some.inj (h t ht)).symm

theorem add (h : q.pending = []) : (q.add d).Denotes (some q.next) := by
  rw [Denotes, pending_add_of_nil h]
  simp

end Denotes

end Schedule

end Concurrent
