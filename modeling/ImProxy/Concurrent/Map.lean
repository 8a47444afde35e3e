import Mathlib.Data.Finmap

/-! # Concurrent maps and weakly consistent iterators

A concurrent map offers atomic reads, writes and conditional removals. Its
iterators are weakly consistent: while other threads change the map, an
iterator returns each entry at most once, returns only entries it has read from
the map since its creation, and ends only after it has read every entry that
was present throughout.
-/

set_option autoImplicit false

namespace Concurrent

/-- A finite map whose operations are atomic steps. -/
abbrev Map (κ ν : Type*) := Finmap fun _ : κ => ν

namespace Map

variable {κ ν : Type*} [DecidableEq κ] (m : Map κ ν) {k k' : κ} {v w : ν} {p : ν → Bool}

def get (k : κ) : Option ν := m.lookup k

def put (k : κ) (v : ν) : Map κ ν := m.insert k v

def containsKey (k : κ) : Bool := (m.get k).isSome

/-- Remove the entry of a key if its value satisfies the test. -/
def removeIf (k : κ) (p : ν → Bool) : Map κ ν := if (m.get k).any p then m.erase k else m

@[simp] theorem get_empty : (∅ : Map κ ν).get k = none := Finmap.lookup_empty k

theorem get_put : (m.put k v).get k' = if k' = k then some v else m.get k' := by
  unfold get put
  split_ifs with h
  · subst h; exact Finmap.lookup_insert m
  · exact Finmap.lookup_insert_of_ne m h

@[simp] theorem get_put_self : (m.put k v).get k = some v := by simp [get_put]

theorem get_put_of_ne (h : k' ≠ k) : (m.put k v).get k' = m.get k' := by simp [get_put, h]

theorem get_removeIf : (m.removeIf k p).get k' =
    if k' = k then (m.get k').filter fun v => !p v else m.get k' := by
  unfold removeIf
  by_cases hk : k' = k
  · subst hk
    cases hg : m.get k' with
    | none => simp [hg]
    | some v =>
      cases hp : p v with
      | false => simp [hg, hp, Option.filter]
      | true => simp [hp, Option.filter, get]
  · rw [if_neg hk]
    split_ifs with h
    · exact Finmap.lookup_erase_ne hk
    · rfl

theorem get_removeIf_of_ne (h : k' ≠ k) : (m.removeIf k p).get k' = m.get k' := by
  simp [get_removeIf, h]

theorem get_of_get_removeIf (h : (m.removeIf k p).get k' = some v) : m.get k' = some v := by
  rw [get_removeIf] at h
  split_ifs at h
  · exact Option.eq_some_of_filter_eq_some h
  · exact h

theorem get_removeIf_eq_some : (m.removeIf k p).get k' = some v ↔
    m.get k' = some v ∧ (k' = k → p v = false) := by
  rw [get_removeIf]
  split_ifs with h <;> simp [h, Option.filter_eq_some_iff]

theorem ext {m m' : Map κ ν} (h : ∀ k, m.get k = m'.get k) : m = m' := Finmap.ext_lookup h

theorem removeIf_eq_self (h : ∀ v, m.get k = some v → p v = false) : m.removeIf k p = m := by
  unfold removeIf
  cases hg : m.get k with
  | none => rfl
  | some v => simp [h v hg]

end Map

/-- The position of an iterator: the map at its creation, the entries it has returned and
those it has read but not returned yet. No entry is read twice. -/
structure Iterator (κ ν : Type*) where

  created : Map κ ν

  returned : List (κ × ν)

  pending : List (κ × ν)

  nodup : (returned ++ pending).Nodup

namespace Iterator

variable {κ ν : Type*} [DecidableEq κ] [DecidableEq ν] (it : Iterator κ ν) (m : Map κ ν)

def fetched : List (κ × ν) := it.returned ++ it.pending

def create (m : Map κ ν) : Iterator κ ν := ⟨m, [], [], List.nodup_nil⟩

/-- Read the current entry of a key, unless it was read before. -/
def fetch (k : κ) : Option (Iterator κ ν) :=
  match m.get k with
  | none => none
  | some v =>
    if h : (k, v) ∈ it.fetched then none
    else some ⟨it.created, it.returned, it.pending ++ [(k, v)], by
      rw [← List.append_assoc]
      exact List.nodup_append.mpr ⟨it.nodup, List.nodup_singleton _, by
        rintro a ha b hb rfl
        exact h (List.mem_singleton.mp hb ▸ ha)⟩⟩

def next : Option ((κ × ν) × Iterator κ ν) :=
  match h : it.pending with
  | [] => none
  | e :: rest => some (e, ⟨it.created, it.returned ++ [e], rest, by
      have := it.nodup
      rw [h] at this
      simpa using this⟩)

/-- The iterator may end: nothing is left to return, and every entry of the map at the
creation that is still there has been read. -/
def Exhausted : Prop :=
  it.pending = [] ∧
    ∀ k ∈ it.created.keys, ∀ v ∈ it.created.get k, m.get k = some v → (k, v) ∈ it.returned

instance : Decidable (it.Exhausted m) := inferInstanceAs (Decidable (_ ∧ _))

variable {it m} {it' : Iterator κ ν} {k : κ} {v : ν} {e : κ × ν}

theorem fetch_eq_some (h : it.fetch m k = some it') : ∃ v, m.get k = some v ∧
    (k, v) ∉ it.fetched ∧ it'.created = it.created ∧ it'.returned = it.returned ∧
    it'.pending = it.pending ++ [(k, v)] := by
  unfold fetch at h
  split at h
  · cases h
  · next v hv =>
    split_ifs at h with hf
    cases h
    exact ⟨v, hv, hf, rfl, rfl, rfl⟩

omit [DecidableEq κ] [DecidableEq ν] in
theorem next_eq_some (h : it.next = some (e, it')) : it.pending = e :: it'.pending ∧
    it'.created = it.created ∧ it'.returned = it.returned ++ [e] := by
  unfold next at h
  split at h
  · cases h
  · next e' rest hp =>
    cases h
    exact ⟨hp, rfl, rfl⟩

omit [DecidableEq κ] [DecidableEq ν] in
theorem last_not_mem (h : it.returned.getLast? = some e) : e ∉ it.returned.dropLast := by
  intro he
  have hn := (List.nodup_append.mp it.nodup).1
  rw [← List.dropLast_append_getLast? _ h] at hn
  exact (List.nodup_append.mp hn).2.2 e he e (by simp) rfl

omit [DecidableEq ν] in
/-- Entries present from the creation on are returned before the iterator ends. -/
theorem Exhausted.returned (h : it.Exhausted m) (hc : it.created.get k = some v)
    (hm : m.get k = some v) : (k, v) ∈ it.returned := by
  refine h.2 k ?_ v hc hm
  rw [Finmap.mem_keys]
  exact Finmap.mem_of_lookup_eq_some hc

/-! ### How far an iterator has come -/

variable (it m) in
def unread : ℕ := (m.keys.filter fun k => ∀ v ∈ m.get k, (k, v) ∉ it.fetched).card

theorem unread_le : it.unread m ≤ m.keys.card := Finset.card_filter_le _ _

theorem unread_congr {it' : Iterator κ ν} (h : it'.fetched = it.fetched) :
    it'.unread m = it.unread m := by
  rw [unread, unread, h]

theorem unread_fetch (h : it.fetch m k = some it') : it'.unread m < it.unread m := by
  obtain ⟨v, hv, hnew, -, hret, hpend⟩ := fetch_eq_some h
  have hf : it'.fetched = it.fetched ++ [(k, v)] := by simp [fetched, hret, hpend]
  refine Finset.card_lt_card (Finset.ssubset_iff_of_subset ?_ |>.mpr ⟨k, ?_, ?_⟩)
  · intro k' hk'
    rw [Finset.mem_filter] at hk' ⊢
    exact ⟨hk'.1, fun w hw hm => hk'.2 w hw (hf ▸ List.mem_append_left _ hm)⟩
  · rw [Finset.mem_filter]
    refine ⟨Finmap.mem_keys.mpr (Finmap.mem_of_lookup_eq_some hv), fun w hw => ?_⟩
    cases hv.symm.trans hw
    exact hnew
  · intro hk'
    exact (Finset.mem_filter.mp hk').2 v hv (hf ▸ by simp)

theorem exists_fetch (h : it.unread m ≠ 0) : ∃ k it', it.fetch m k = some it' := by
  obtain ⟨k, hk⟩ := Finset.card_ne_zero.mp h
  obtain ⟨hk, hnew⟩ := Finset.mem_filter.mp hk
  obtain ⟨v, hv⟩ := Finmap.mem_iff.mp (Finmap.mem_keys.mp hk)
  refine ⟨k, ?_⟩
  have hg : m.get k = some v := hv
  simp only [fetch, hg]
  rw [dif_neg (hnew v hg)]
  exact ⟨_, rfl⟩

omit [DecidableEq κ] [DecidableEq ν] in
theorem exists_next (h : it.pending ≠ []) : ∃ e it', it.next = some (e, it') := by
  unfold next
  split
  · next hp => exact absurd hp h
  · exact ⟨_, _, rfl⟩

theorem exhausted_of (hp : it.pending = []) (h : it.unread m = 0) : it.Exhausted m := by
  refine ⟨hp, fun k _ v _ hv => ?_⟩
  by_contra hm
  have hk : k ∈ m.keys.filter fun k => ∀ v ∈ m.get k, (k, v) ∉ it.fetched := by
    rw [Finset.mem_filter]
    refine ⟨Finmap.mem_keys.mpr (Finmap.mem_of_lookup_eq_some hv), fun w hw => ?_⟩
    cases hv.symm.trans hw
    rwa [fetched, hp, List.append_nil]
  rw [unread, Finset.card_eq_zero] at h
  rw [h] at hk
  cases hk

end Iterator

end Concurrent
