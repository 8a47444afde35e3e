import Mathlib.Data.List.DropRight
import Mathlib.Data.List.Infix

/-! # Splitting at a separator

A word is split at every separator, empty pieces included, and joining the pieces
gives the word back. The last piece is empty exactly if the word is empty or ends
with the separator, and a split that drops trailing empty pieces loses them only
there.
-/

set_option autoImplicit false

namespace Lexical

section trailing

variable {α : Type*} {a b : α} {ls : List (List α)} {l : List α}

theorem exists_trailing (a : α) (l : List α) :
    ∃ m n, l = m ++ List.replicate n a ∧ ∀ k, m ≠ k ++ [a] := by
  induction l using List.reverseRecOn with
  | nil => exact ⟨[], 0, by simp⟩
  | append_singleton l b ih =>
    by_cases hb : b = a
    · obtain ⟨m, n, rfl, hm⟩ := ih
      subst hb
      exact ⟨m, n + 1, by rw [List.replicate_succ', List.append_assoc], hm⟩
    · refine ⟨l ++ [b], 0, by simp, fun k hk => hb ?_⟩
      exact List.singleton_inj.mp (List.append_inj' hk rfl).2

def dropTrailing (ls : List (List α)) : List (List α) := ls.rdropWhile List.isEmpty

@[simp] theorem dropTrailing_nil : dropTrailing ([] : List (List α)) = [] := rfl

@[simp] theorem dropTrailing_concat_nil : dropTrailing (ls ++ [[]]) = dropTrailing ls :=
  List.rdropWhile_concat_pos _ _ _ rfl

theorem dropTrailing_concat_of_ne (h : l ≠ []) : dropTrailing (ls ++ [l]) = ls ++ [l] :=
  List.rdropWhile_concat_neg _ _ _ (by simpa using h)

theorem dropTrailing_append (ls : List (List α)) :
    ∃ n, ls = dropTrailing ls ++ List.replicate n [] := by
  induction ls using List.reverseRecOn with
  | nil => exact ⟨0, rfl⟩
  | append_singleton ls l ih =>
    by_cases hl : l = []
    · obtain ⟨n, hn⟩ := ih
      refine ⟨n + 1, ?_⟩
      rw [hl, dropTrailing_concat_nil, List.replicate_succ', ← List.append_assoc, ← hn]
    · exact ⟨0, by rw [dropTrailing_concat_of_ne hl]; simp⟩

end trailing

variable {α : Type*} [DecidableEq α] {a b : α} {s t : List α}

theorem splitOn_injective (h : s.splitOn a = t.splitOn a) : s = t :=
  calc s = [a].intercalate (s.splitOn a) := (List.intercalate_splitOn a).symm
    _ = [a].intercalate (t.splitOn a) := by rw [h]
    _ = t := List.intercalate_splitOn a

theorem mem_of_mem_splitOn {l : List α} (hl : l ∈ s.splitOn a) (hb : b ∈ l) : b ∈ s := by
  induction s generalizing l with
  | nil => rw [List.splitOn_nil, List.mem_singleton] at hl; simp [hl] at hb
  | cons c s ih =>
    rw [List.splitOn_cons_eq_if_modifyHead] at hl
    split_ifs at hl
    · rcases List.mem_cons.mp hl with rfl | hl
      · simp at hb
      · exact List.mem_cons_of_mem _ (ih hl hb)
    · obtain ⟨k, ks, hk⟩ := List.exists_cons_of_ne_nil (List.splitOn_ne_nil a s)
      rw [hk, List.modifyHead_cons] at hl
      rw [hk] at ih
      rcases List.mem_cons.mp hl with rfl | hl
      · rcases List.mem_cons.mp hb with rfl | hb
        · exact List.mem_cons_self
        · exact List.mem_cons_of_mem _ (ih List.mem_cons_self hb)
      · exact List.mem_cons_of_mem _ (ih (List.mem_cons_of_mem _ hl) hb)

theorem splitOn_concat_self : (s ++ [a]).splitOn a = s.splitOn a ++ [[]] := by
  rw [List.splitOn_append_cons_self, List.splitOn_nil]

theorem splitOn_concat_of_ne (h : b ≠ a) :
    ∃ ls l, (s ++ [b]).splitOn a = ls ++ [l ++ [b]] := by
  induction s with
  | nil => exact ⟨[], [], by simp [List.splitOn_cons_eq_if_modifyHead, h]⟩
  | cons c s ih =>
    obtain ⟨ls, l, hs⟩ := ih
    rw [List.cons_append, List.splitOn_cons_eq_if_modifyHead, hs]
    split_ifs
    · exact ⟨[] :: ls, l, rfl⟩
    · cases ls with
      | nil => exact ⟨[], c :: l, rfl⟩
      | cons k ls => exact ⟨(c :: k) :: ls, l, rfl⟩

theorem dropTrailing_splitOn_of_ne (h : b ≠ a) :
    dropTrailing ((s ++ [b]).splitOn a) = (s ++ [b]).splitOn a := by
  obtain ⟨ls, l, hs⟩ := splitOn_concat_of_ne (s := s) h
  rw [hs, dropTrailing_concat_of_ne (by simp)]

end Lexical
