import Mathlib.Data.List.Basic
import Mathlib.Tactic.Ring

/-! # Buffers filled from the front

A writer holds a buffer of fixed length and a position, and puts letters there one after
the other. What it has written so far determines the buffer: the rest is still blank.
-/

set_option autoImplicit false

namespace Lexical.Buffer

variable {β : Type*} {z b : β} {n : ℕ} {bs cs : List β}

/-- Write letters from a position on. A letter behind the end of the buffer is dropped. -/
def write (buffer : List β) (pos : ℕ) : List β → List β
  | [] => buffer
  | b :: bs => write (buffer.set pos b) (pos + 1) bs

/-- A buffer of length `n` with these letters written and blanks behind them. -/
def filled (z : β) (n : ℕ) (bs : List β) : List β := bs ++ List.replicate (n - bs.length) z

theorem filled_nil : filled z n [] = List.replicate n z := by simp [filled]

theorem filled_of_le (h : n ≤ bs.length) : filled z n bs = bs := by
  rw [filled, Nat.sub_eq_zero_of_le h, List.replicate_zero, List.append_nil]

theorem length_filled (h : bs.length ≤ n) : (filled z n bs).length = n := by
  rw [filled, List.length_append, List.length_replicate]
  omega

theorem set_filled (h : bs.length < n) :
    (filled z n bs).set bs.length b = filled z n (bs ++ [b]) := by
  obtain ⟨k, hk⟩ := Nat.exists_eq_add_of_lt h
  have h₁ : n - bs.length = k + 1 := by omega
  have h₂ : n - (bs ++ [b]).length = k := by
    rw [List.length_append, List.length_singleton]
    omega
  rw [filled, filled, h₁, h₂, List.set_append_right _ _ (Nat.le_refl _), Nat.sub_self,
    List.replicate_succ, List.set_cons_zero, List.append_assoc]
  rfl

theorem write_filled (h : bs.length + cs.length ≤ n) :
    write (filled z n bs) bs.length cs = filled z n (bs ++ cs) := by
  induction cs generalizing bs with
  | nil => rw [List.append_nil]; rfl
  | cons c cs ih =>
    rw [List.length_cons] at h
    have hl : (bs ++ [c]).length = bs.length + 1 := by simp
    rw [write, set_filled (by omega), ← hl, ih (by omega), List.append_assoc]
    rfl

/-- Blanks between what is written and what is not written make no difference. -/
theorem filled_append_filled {k : ℕ} (hk : cs.length ≤ k) (hn : bs.length + k ≤ n) :
    filled z n (bs ++ filled z k cs) = filled z n (bs ++ cs) := by
  obtain ⟨i, rfl⟩ := Nat.exists_eq_add_of_le hk
  obtain ⟨j, rfl⟩ := Nat.exists_eq_add_of_le hn
  have h₁ : bs.length + (cs.length + i) + j - (bs ++ filled z (cs.length + i) cs).length = j := by
    rw [List.length_append, length_filled hk]
    omega
  have h₂ : bs.length + (cs.length + i) + j - (bs ++ cs).length = i + j := by
    rw [List.length_append]
    omega
  unfold filled at h₁ ⊢
  rw [h₁, h₂, Nat.add_sub_cancel_left, List.replicate_add]
  simp only [List.append_assoc]

theorem write_append (buffer : List β) (pos : ℕ) (bs cs : List β) :
    write buffer pos (bs ++ cs) = write (write buffer pos bs) (pos + bs.length) cs := by
  induction bs generalizing buffer pos with
  | nil => rfl
  | cons b bs ih =>
    rw [List.cons_append, write, ih, write, List.length_cons, Nat.add_assoc, Nat.add_comm 1]

/-! ### Writers -/

/-- A writer takes a buffer and a position and gives back the buffer and the next position. -/
abbrev Writer (ε β : Type*) := List β → ℕ → Except ε (List β × ℕ)

/-- Where there is room for `length` letters, the writer puts the letters of `r` behind what is
written, or it fails as `r` does. -/
structure Writes {ε : Type*} (z : β) (f : Writer ε β) (length : ℕ) (r : Except ε (List β)) :
    Prop where

  length_eq : ∀ cs, r = .ok cs → cs.length = length

  eq : ∀ n bs, bs.length + length ≤ n →
    f (filled z n bs) bs.length = r.map fun cs => (filled z n (bs ++ cs), (bs ++ cs).length)

/-- The letters of one part behind those of another, unless one of them fails. -/
def concat {ε : Type*} (r r' : Except ε (List β)) : Except ε (List β) := do
  return (← r) ++ (← r')

def concatAll {ε : Type*} (rs : List (Except ε (List β))) : Except ε (List β) :=
  rs.foldr concat (.ok [])

theorem concat_ok {ε : Type*} (r : Except ε (List β)) (cs : List β) :
    concat r (.ok cs) = (· ++ cs) <$> r := by
  cases r <;> rfl

theorem concatAll_map {ε α : Type} {γ β : Type} {r : α → Except ε (List β)} {g : α → Except ε γ}
    {f : γ → List β} (h : ∀ a, r a = f <$> g a) (as : List α) :
    concatAll (as.map r) = (fun cs => cs.flatMap f) <$> as.mapM g := by
  induction as with
  | nil => rfl
  | cons a as ih =>
    have hc : concatAll ((a :: as).map r) = concat (r a) (concatAll (as.map r)) := rfl
    rw [hc, ih, h, List.mapM_cons]
    cases g a with
    | error e => rfl
    | ok c =>
      cases as.mapM g with
      | error e => rfl
      | ok cs => rfl

namespace Writes

variable {ε : Type*} {f g : Writer ε β} {k l : ℕ} {r r' : Except ε (List β)}

theorem nil : Writes z (fun buffer pos => (.ok (buffer, pos) : Except ε _)) 0 (.ok []) where
  length_eq cs h := by cases h; rfl
  eq n bs _ := by simp [Except.map]

theorem cast (h : Writes z f k r) (hk : k = l) : Writes z f l r := hk ▸ h

theorem bind (hf : Writes z f k r) (hg : Writes z g l r') :
    Writes z (fun buffer pos => f buffer pos >>= fun w => g w.1 w.2) (k + l) (concat r r') where
  length_eq cs h := by
    cases r with
    | error e => cases h
    | ok as =>
      cases r' with
      | error e => cases h
      | ok bs =>
        cases h
        rw [List.length_append, hf.length_eq as rfl, hg.length_eq bs rfl]
  eq n bs h := by
    rw [hf.eq n bs (by omega)]
    cases r with
    | error e => rfl
    | ok as =>
      have hl := hf.length_eq as rfl
      have hg := hg.eq n (bs ++ as) (by rw [List.length_append]; omega)
      change g (filled z n (bs ++ as)) (bs ++ as).length = _
      rw [hg]
      cases r' with
      | error e => rfl
      | ok cs => rw [Except.map, List.append_assoc]; rfl

theorem foldlM {α : Type*} {f : α → Writer ε β} {l : α → ℕ} {r : α → Except ε (List β)}
    (h : ∀ a, Writes z (f a) (l a) (r a)) (as : List α) :
    Writes z (fun buffer pos => as.foldlM (fun w a => f a w.1 w.2) (buffer, pos))
      (as.map l).sum (concatAll (as.map r)) := by
  induction as with
  | nil => exact nil
  | cons a as ih => exact ((h a).bind ih).cast (by rw [List.map_cons, List.sum_cons])

theorem replicate (h : Writes z f n r) :
    (do return (← f (List.replicate n z) 0).1) = r := by
  have hf := h.eq n [] (Nat.le_of_eq (Nat.zero_add n))
  rw [filled_nil, List.length_nil] at hf
  rw [hf]
  cases r with
  | error e => rfl
  | ok cs =>
    have hl := h.length_eq cs rfl
    change Except.ok (filled z n ([] ++ cs)) = _
    rw [List.nil_append, filled_of_le (Nat.le_of_eq hl.symm)]

end Writes

end Lexical.Buffer
