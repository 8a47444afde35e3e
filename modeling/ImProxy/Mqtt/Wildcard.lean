import ImProxy.Lexical.Split
import ImProxy.Mqtt.Topic

/-! # Levels, wildcard rules and what a parse keeps

The levels of a topic are its pieces between separators, empty ones included. A
parse looks at the levels without the empty ones at the end, of which it gives back
one. It succeeds exactly if all levels obey the wildcard rules, and its tokens are
those of the levels it kept.
-/

set_option autoImplicit false

namespace ImProxy

open Lexical

/-- The levels of a topic, every separator counted. -/
def levels (s : List Char) : List (List Char) := s.splitOn '/'

/-- The rules for the level at index `i` out of `length`: a level with `#` is `#` alone and
the last one, a level with `+` is `+` alone. -/
structure LevelRule (length i : ℕ) (l : List Char) : Prop where
  multi : '#' ∈ l → l = ['#'] ∧ i + 1 = length
  single : '+' ∈ l → l = ['+']

def WildcardRules (ls : List (List Char)) : Prop :=
  ∀ i l, ls[i]? = some l → LevelRule ls.length i l

instance (length i : ℕ) (l : List Char) : Decidable (LevelRule length i l) :=
  decidable_of_iff (('#' ∈ l → l = ['#'] ∧ i + 1 = length) ∧ ('+' ∈ l → l = ['+']))
    ⟨fun h => ⟨h.1, h.2⟩, fun h => ⟨h.1, h.2⟩⟩

instance (ls : List (List Char)) : Decidable (WildcardRules ls) :=
  decidable_of_iff (∀ i : Fin ls.length, LevelRule ls.length i ls[i])
    ⟨fun h _ _ hl => by
      obtain ⟨hi, rfl⟩ := List.getElem?_eq_some_iff.mp hl
      exact h ⟨_, hi⟩,
    fun h i => h i _ (List.getElem?_eq_getElem i.isLt)⟩

def levelToken (l : List Char) : Token :=
  if l.isEmpty then .empty
  else if l = ['#'] then .multi
  else if l = ['+'] then .single
  else .named (String.ofList l)

variable {s s' : List Char} {l : List Char} {ls : List (List Char)} {n i : ℕ} {t : Token}
  {ts : List Token}

@[simp] theorem levelToken_name (l : List Char) : (levelToken l).name = String.ofList l := by
  unfold levelToken
  split_ifs with h h h
  · rw [List.isEmpty_iff.mp h]; rfl
  · rw [h]; rfl
  · rw [h]; rfl
  · rfl

theorem levelToken_multi (h : (levelToken l).name = "#") : levelToken l = .multi := by
  rw [levelToken_name] at h
  have : l = ['#'] := by rw [← String.toList_ofList (l := l), h]; rfl
  rw [this]; rfl

theorem levelToken_single (h : (levelToken l).name = "+") : levelToken l = .single := by
  rw [levelToken_name] at h
  have : l = ['+'] := by rw [← String.toList_ofList (l := l), h]; rfl
  rw [this]; rfl

theorem bind_eq_ok {ε α β : Type} {x : Except ε α} {f : α → Except ε β} {b : β} :
    x >>= f = .ok b ↔ ∃ a, x = .ok a ∧ f a = .ok b := by
  cases x <;> simp [bind, Except.bind]

theorem wildcardRules_of_not_mem (hm : '#' ∉ s) (hs : '+' ∉ s) : WildcardRules (levels s) := by
  intro i l hl
  have hl := List.mem_of_getElem? hl
  exact ⟨fun h => absurd (mem_of_mem_splitOn hl h) hm,
    fun h => absurd (mem_of_mem_splitOn hl h) hs⟩

theorem multi_not_mem_dropLast (h : WildcardRules ls) :
    Token.multi ∉ (ls.map levelToken).dropLast := by
  intro hm
  obtain ⟨i, hi⟩ := List.mem_iff_getElem?.mp hm
  rw [List.getElem?_dropLast, List.length_map] at hi
  split_ifs at hi with hlt
  rw [List.getElem?_map] at hi
  obtain ⟨l, hl, hm⟩ := Option.map_eq_some_iff.mp hi
  have hname := congrArg Token.name hm
  rw [levelToken_name] at hname
  have hmem : '#' ∈ l := by rw [← String.toList_ofList (l := l), hname]; decide
  have := ((h i l hl).multi hmem).2
  omega

namespace Topic

theorem parseLevel_eq_ok :
    parseLevel n i l = .ok t ↔ LevelRule n i l ∧ t = levelToken l := by
  unfold parseLevel levelToken
  by_cases h : l = []
  · subst h
    constructor
    · rintro ⟨⟩; exact ⟨⟨by simp, by simp⟩, rfl⟩
    · rintro ⟨-, rfl⟩; rfl
  rw [List.isEmpty_eq_false_iff.mpr h]
  by_cases hm : l = ['#']
  · subst hm
    by_cases hn : i + 1 = n
    · rw [if_neg (by simp), if_pos rfl, if_neg (by simpa using hn)]
      constructor
      · rintro ⟨⟩; exact ⟨⟨fun _ => ⟨rfl, hn⟩, by simp⟩, rfl⟩
      · rintro ⟨-, rfl⟩; rfl
    · rw [if_neg (by simp), if_pos rfl, if_pos (by simpa using hn)]
      constructor
      · rintro ⟨⟩
      · rintro ⟨hr, -⟩; exact absurd (hr.multi (by simp)).2 hn
  rw [if_neg (by simp), if_neg hm]
  by_cases hm' : '#' ∈ l
  · rw [if_pos hm']
    constructor
    · rintro ⟨⟩
    · rintro ⟨hr, -⟩; exact absurd (hr.multi hm').1 hm
  rw [if_neg hm']
  by_cases hs : l = ['+']
  · subst hs
    constructor
    · rintro ⟨⟩; exact ⟨⟨by simp, fun _ => rfl⟩, rfl⟩
    · rintro ⟨-, rfl⟩; rfl
  rw [if_neg hs]
  by_cases hs' : '+' ∈ l
  · rw [if_pos hs']
    constructor
    · rintro ⟨⟩
    · rintro ⟨hr, -⟩; exact absurd (hr.single hs') hs
  · rw [if_neg hs', if_neg (by simp), if_neg hm, if_neg hs]
    constructor
    · rintro ⟨⟩; exact ⟨⟨fun h => absurd h hm', fun h => absurd h hs'⟩, rfl⟩
    · rintro ⟨-, rfl⟩; rfl

theorem parseLevels_eq_ok :
    parseLevels n i ls = .ok ts ↔
      (∀ j l, ls[j]? = some l → LevelRule n (i + j) l) ∧ ts = ls.map levelToken := by
  induction ls generalizing i ts with
  | nil => simp [parseLevels, eq_comm]
  | cons k ls ih =>
    have hcons : parseLevels n i (k :: ls) = .ok ts ↔ ∃ t, parseLevel n i k = .ok t ∧
        ∃ us, parseLevels n (i + 1) ls = .ok us ∧ t :: us = ts := by
      simp only [parseLevels, bind_eq_ok, pure, Except.pure, Except.ok.injEq]
    rw [hcons]
    constructor
    · rintro ⟨t, ht, us, hus, rfl⟩
      obtain ⟨hk, rfl⟩ := parseLevel_eq_ok.mp ht
      obtain ⟨hls, rfl⟩ := ih.mp hus
      refine ⟨?_, rfl⟩
      rintro (_ | j) l hl
      · cases hl; exact hk
      · have := hls j l hl
        rwa [Nat.add_right_comm, Nat.add_assoc] at this
    · rintro ⟨hr, rfl⟩
      refine ⟨_, parseLevel_eq_ok.mpr ⟨hr 0 k rfl, rfl⟩, _, ih.mpr ⟨fun j l hl => ?_, rfl⟩, rfl⟩
      have := hr (j + 1) l hl
      rwa [Nat.add_right_comm, Nat.add_assoc]

def parts (s : List Char) : List (List Char) :=
  if s.getLast? = some '/' then split s ++ [[]] else split s

/-- The levels that a parse keeps: one more where nothing but separators was split. -/
def kept (s : List Char) : List (List Char) := (if split s = [] then [[]] else []) ++ parts s

@[simp] theorem split_nil : split [] = [[]] := rfl

@[simp] theorem split_concat_self : split (s ++ ['/']) = dropTrailing (levels s) := by
  rw [levels, ← dropTrailing_concat_nil, ← splitOn_concat_self, split, if_pos (by simp)]
  rfl

theorem split_concat_of_ne {c : Char} (h : c ≠ '/') : split (s ++ [c]) = levels (s ++ [c]) := by
  unfold split
  split_ifs with hm
  · exact dropTrailing_splitOn_of_ne h
  · exact (List.splitOn_eq_singleton hm).symm

@[simp] theorem parts_concat_self : parts (s ++ ['/']) = dropTrailing (levels s) ++ [[]] := by
  simp [parts]

theorem parts_concat_of_ne {c : Char} (h : c ≠ '/') : parts (s ++ [c]) = levels (s ++ [c]) := by
  rw [parts, if_neg (by simpa using h), split_concat_of_ne h]

theorem levels_ne_nil (s : List Char) : levels s ≠ [] := List.splitOn_ne_nil _ _

theorem levels_concat_self (s : List Char) : levels (s ++ ['/']) = levels s ++ [[]] :=
  splitOn_concat_self

/-- The parser leaves out only empty levels at the end, and only after an empty level. -/
theorem levels_eq_parts (s : List Char) :
    ∃ n, levels s = parts s ++ List.replicate n [] ∧ (n = 0 ∨ ∃ ls, parts s = ls ++ [[]]) := by
  rcases List.eq_nil_or_concat' s with rfl | ⟨s, c, rfl⟩
  · exact ⟨0, rfl, .inl rfl⟩
  · by_cases hc : c = '/'
    · subst hc
      obtain ⟨n, hn⟩ := dropTrailing_append (levels s)
      refine ⟨n, ?_, .inr ⟨_, parts_concat_self⟩⟩
      rw [parts_concat_self, levels_concat_self, List.append_assoc,
        List.singleton_append, ← List.replicate_succ, List.replicate_succ', ← List.append_assoc]
      exact congrArg (· ++ [[]]) hn
    · exact ⟨0, by rw [parts_concat_of_ne hc]; simp, .inl rfl⟩

theorem wildcardRules_parts : WildcardRules (parts s) ↔ WildcardRules (levels s) := by
  obtain ⟨n, hl, hn⟩ := levels_eq_parts s
  have hlen : (levels s).length = (parts s).length + n := by rw [hl]; simp
  constructor
  · intro h i l hi
    rw [hl, List.getElem?_append] at hi
    split_ifs at hi with hlt
    · obtain ⟨hm, hs⟩ := h i l hi
      refine ⟨fun hx => ?_, hs⟩
      obtain ⟨rfl, hlast⟩ := hm hx
      refine ⟨rfl, ?_⟩
      rcases hn with rfl | ⟨ls, hp⟩
      · rw [hlen]; exact hlast
      · have hi' : i = ls.length := by rw [hp] at hlast; simpa using hlast
        rw [hp, hi'] at hi
        simp at hi
    · rw [List.getElem?_replicate] at hi
      split_ifs at hi
      cases hi
      exact ⟨by simp, by simp⟩
  · intro h i l hi
    have hlt : i < (parts s).length := (List.getElem?_eq_some_iff.mp hi).1
    obtain ⟨hm, hs⟩ := h i l (by rw [hl, List.getElem?_append_left hlt]; exact hi)
    refine ⟨fun hx => ⟨(hm hx).1, ?_⟩, hs⟩
    have := (hm hx).2
    omega

theorem wildcardRules_kept (h : WildcardRules (levels s)) : WildcardRules (kept s) := by
  by_cases hs : split s = []
  · have hempty : ∀ l ∈ kept s, l = [] := by
      intro l
      rw [kept, parts, hs]
      split_ifs <;> simp
    intro i l hl
    rw [hempty l (List.mem_of_getElem? hl)]
    exact ⟨by simp, by simp⟩
  · rw [kept, if_neg hs, List.nil_append]
    exact wildcardRules_parts.mpr h

/-- A topic parses exactly if its levels obey the wildcard rules, into the tokens of the
levels that are kept. -/
theorem parseTopic_eq_ok {s : String} :
    parseTopic s = .ok ts ↔
      WildcardRules (levels s.toList) ∧ ts = (kept s.toList).map levelToken := by
  rw [← wildcardRules_parts]
  have hparts : parseTopic s = do
      let ts ← parseLevels (parts s.toList).length 0 (parts s.toList)
      return (if split s.toList = [] then [Token.empty] else []) ++ ts := by
    simp only [parseTopic, parts, List.length_eq_zero_iff]
  rw [hparts]
  have hempty : (if split s.toList = [] then [Token.empty] else []) =
      (if split s.toList = [] then [[]] else []).map levelToken := by
    split_ifs <;> rfl
  rw [hempty, kept, List.map_append]
  simp only [bind_eq_ok, pure, Except.pure, parseLevels_eq_ok, Nat.zero_add, Except.ok.injEq]
  constructor
  · rintro ⟨us, ⟨hr, rfl⟩, rfl⟩; exact ⟨hr, rfl⟩
  · rintro ⟨hr, rfl⟩; exact ⟨_, ⟨hr, rfl⟩, rfl⟩

theorem getTokens_asTopic (s : String) :
    (asTopic s).getTokens = match parseTopic s with
      | .ok ts => ⟨s, some ts, true⟩
      | .error _ => ⟨s, none, false⟩ := by
  cases h : parseTopic s <;> simp [getTokens, asTopic, h]

theorem tokens_eq_some {s : String} :
    (asTopic s).getTokens.tokens = some ts ↔
      WildcardRules (levels s.toList) ∧ ts = (kept s.toList).map levelToken := by
  rw [← parseTopic_eq_ok, getTokens_asTopic]
  cases parseTopic s <;> simp

theorem valid_iff_rules {s : String} :
    (asTopic s).getTokens.valid = true ↔ WildcardRules (levels s.toList) := by
  have : WildcardRules (levels s.toList) ↔ ∃ ts, parseTopic s = .ok ts := by
    simp [parseTopic_eq_ok]
  rw [this, getTokens_asTopic]
  cases parseTopic s <;> simp

theorem tokens_of_valid {s : String} (h : (asTopic s).getTokens.valid = true) :
    (asTopic s).getTokens.tokens = some ((kept s.toList).map levelToken) :=
  tokens_eq_some.mpr ⟨valid_iff_rules.mp h, rfl⟩

@[simp] theorem getTokens_getTokens (t : Topic) : t.getTokens.getTokens = t.getTokens := by
  obtain ⟨s, tokens, valid⟩ := t
  cases tokens with
  | some ts => rfl
  | none => cases h : parseTopic s <;> simp [getTokens, h]

theorem isValid_eq (t : Topic) : t.isValid = (t.getTokens.valid, t.getTokens) := by
  obtain ⟨s, tokens, valid⟩ := t
  cases tokens <;> rfl

theorem kept_concat_of_ne {c : Char} (h : c ≠ '/') : kept (s ++ [c]) = levels (s ++ [c]) := by
  rw [kept, parts_concat_of_ne h, split_concat_of_ne h, if_neg (levels_ne_nil _),
    List.nil_append]

theorem kept_separator (h : ∀ k, s ≠ k ++ ['/']) : kept (s ++ ['/']) = levels (s ++ ['/']) := by
  rcases List.eq_nil_or_concat' s with rfl | ⟨s, c, rfl⟩
  · rfl
  · have hc : c ≠ '/' := by rintro rfl; exact h s rfl
    have hd : dropTrailing (levels (s ++ [c])) = levels (s ++ [c]) := dropTrailing_splitOn_of_ne hc
    rw [kept, parts_concat_self, split_concat_self, hd, if_neg (levels_ne_nil _),
      List.nil_append, levels_concat_self]

theorem kept_separators (s : List Char) : kept (s ++ ['/'] ++ ['/']) = kept (s ++ ['/']) := by
  rw [kept, kept, parts_concat_self, parts_concat_self, split_concat_self, split_concat_self,
    levels_concat_self, dropTrailing_concat_nil]

theorem kept_replicate (s : List Char) (n : ℕ) :
    kept (s ++ List.replicate (n + 1) '/') = kept (s ++ ['/']) := by
  induction n with
  | zero => rfl
  | succ n ih =>
    rw [← ih, List.replicate_succ', List.replicate_succ', ← List.append_assoc,
      ← List.append_assoc, kept_separators]

theorem exists_core (s : List Char) :
    ∃ u n, s = u ++ List.replicate n '/' ∧ (∀ k, u ≠ k ++ ['/']) ∧
      kept s = levels (u ++ List.replicate (min n 1) '/') := by
  obtain ⟨u, n, rfl, hu⟩ := exists_trailing '/' s
  refine ⟨u, n, rfl, hu, ?_⟩
  cases n with
  | zero =>
    simp only [List.replicate_zero, List.append_nil, Nat.zero_min]
    rcases List.eq_nil_or_concat' u with rfl | ⟨u, c, rfl⟩
    · rfl
    · exact kept_concat_of_ne (by rintro rfl; exact hu u rfl)
  | succ n =>
    rw [kept_replicate, kept_separator hu, Nat.min_eq_right (by omega)]
    rfl

/-- All levels are kept exactly if there are no two separators at the end. -/
theorem kept_eq_levels : kept s = levels s ↔ ¬ ['/', '/'] <:+ s := by
  obtain ⟨u, n, rfl, hu, hk⟩ := exists_core s
  rw [hk]
  constructor
  · rintro h ⟨v, hv⟩
    have hn : min n 1 = n := by simpa using congrArg List.length (splitOn_injective h)
    rcases n with _ | _ | n
    · exact hu (v ++ ['/']) (by simpa using hv.symm)
    · have hv' : u ++ ['/'] = v ++ ['/'] ++ ['/'] := by simpa using hv.symm
      exact hu v (List.append_cancel_right hv')
    · omega
  · intro h
    have hn : n ≤ 1 := by
      by_contra hn
      obtain ⟨m, rfl⟩ := Nat.exists_eq_add_of_le' (show 2 ≤ n by omega)
      exact h ⟨u ++ List.replicate m '/', by simp [List.replicate_succ']⟩
    rw [Nat.min_eq_left hn]

theorem kept_eq_kept :
    kept s = kept s' ↔ s = s' ∨ ∃ u m n, s = u ++ List.replicate (m + 1) '/' ∧
      s' = u ++ List.replicate (n + 1) '/' := by
  constructor
  · intro h
    obtain ⟨u, m, rfl, hu, hk⟩ := exists_core s
    obtain ⟨u', n, rfl, hu', hk'⟩ := exists_core s'
    have := splitOn_injective (hk.symm.trans (h.trans hk'))
    rcases m with _ | m <;> rcases n with _ | n
    · left; simpa using this
    · exact absurd this (by simpa using hu u')
    · exact absurd this.symm (by simpa using hu' u)
    · right
      simp only [Nat.min_eq_right (Nat.le_add_left 1 _)] at this
      rw [List.append_cancel_right this]
      exact ⟨_, m, n, rfl, rfl⟩
  · rintro (rfl | ⟨u, m, n, rfl, rfl⟩)
    · rfl
    · rw [kept_replicate, kept_replicate]

end Topic

end ImProxy
