import ImProxy.Mqtt.Wildcard

/-! # Matching a topic with a filter

The recursive rules take a filter token by token. The matching loop agrees with them
as long as the message topic has tokens left, and past its end it goes on over
single-level wildcards, so that it finds a multi-level wildcard that the rules do
not reach.
-/

set_option autoImplicit false

namespace ImProxy

/-- The recursive rules of a filter for the tokens of a message topic. -/
inductive Matches : List Token → List Token → Prop

  | nil : Matches [] []

  | token {k l : Token} {f m : List Token} : k ≠ .multi → k ≠ .single → l.equals k →
      Matches f m → Matches (k :: f) (l :: m)

  | single {l : Token} {f m : List Token} : Matches f m → Matches (.single :: f) (l :: m)

  | multi {m : List Token} : Matches [.multi] m

def overrun (n : ℕ) : List Token := List.replicate n .single ++ [.multi]

/-- The filter goes on after it matched the message topic, with single-level wildcards and the
multi-level wildcard. -/
def Overruns (f m : List Token) : Prop := ∃ f' n, f = f' ++ overrun (n + 1) ∧ Matches f' m

variable {k l : Token} {f f' m : List Token} {i n : ℕ}

theorem overrun_succ (n : ℕ) : overrun (n + 1) = .single :: overrun n := by
  simp [overrun, List.replicate_succ]

theorem matches_nil : Matches f [] ↔ f = [] ∨ f = [.multi] := by
  constructor
  · intro h
    cases h with
    | nil => exact .inl rfl
    | multi => exact .inr rfl
  · rintro (rfl | rfl)
    · exact .nil
    · exact .multi

@[simp] theorem matches_single : Matches (.single :: f) (l :: m) ↔ Matches f m := by
  constructor
  · intro h
    cases h with
    | token _ hs => exact absurd rfl hs
    | single h => exact h
  · exact .single

theorem matches_token (hm : k ≠ .multi) (hs : k ≠ .single) :
    Matches (k :: f) (l :: m) ↔ l.equals k ∧ Matches f m := by
  constructor
  · intro h
    cases h with
    | token _ _ he h => exact ⟨he, h⟩
    | single => exact absurd rfl hs
    | multi => exact absurd rfl hm
  · rintro ⟨he, h⟩; exact .token hm hs he h

theorem Matches.length_eq (h : Matches f m) (hf : Token.multi ∉ f) : f.length = m.length := by
  induction h with
  | nil => rfl
  | token _ _ _ _ ih => simp [ih fun h => hf (List.mem_cons_of_mem _ h)]
  | single _ ih => simp [ih fun h => hf (List.mem_cons_of_mem _ h)]
  | multi => exact absurd (List.mem_singleton_self _) hf

theorem Matches.length_le (h : Matches f m) : f.length ≤ m.length + 1 := by
  induction h with
  | nil => simp
  | token _ _ _ _ ih => simpa using ih
  | single _ ih => simpa using ih
  | multi => simp

theorem cons_eq_overrun :
    (∃ n, k :: f = overrun n) ↔ k = .multi ∧ f = [] ∨ k = .single ∧ ∃ n, f = overrun n := by
  constructor
  · rintro ⟨n, h⟩
    cases n with
    | zero => exact .inl (List.cons.inj h)
    | succ n =>
      rw [overrun_succ] at h
      exact .inr ⟨(List.cons.inj h).1, n, (List.cons.inj h).2⟩
  · rintro (⟨rfl, rfl⟩ | ⟨rfl, n, rfl⟩)
    · exact ⟨0, rfl⟩
    · exact ⟨n + 1, (overrun_succ n).symm⟩

theorem overruns_cons (hk : k ≠ .multi) :
    Overruns (k :: f) m ↔
      (m = [] ∧ k = .single ∧ ∃ n, f = overrun n) ∨
      ∃ f' n, f = f' ++ overrun (n + 1) ∧ Matches (k :: f') m := by
  constructor
  · rintro ⟨f', n, hf, hm⟩
    cases f' with
    | nil =>
      rw [List.nil_append, overrun_succ, List.cons.injEq] at hf
      rcases m with _ | ⟨l, m⟩
      · exact .inl ⟨rfl, hf.1, n, hf.2⟩
      · cases hm
    | cons k' f' =>
      rw [List.cons_append, List.cons.injEq] at hf
      exact .inr ⟨f', n, hf.2, hf.1 ▸ hm⟩
  · rintro (⟨rfl, rfl, n, rfl⟩ | ⟨f', n, rfl, hm⟩)
    · exact ⟨[], n, (overrun_succ n).symm, .nil⟩
    · exact ⟨k :: f', n, rfl, hm⟩

theorem overruns_nil (hk : k ≠ .multi) :
    Overruns (k :: f) [] ↔ k = .single ∧ ∃ n, f = overrun n := by
  rw [overruns_cons hk]
  simp [matches_nil, hk]

theorem overruns_single : Overruns (.single :: f) (l :: m) ↔ Overruns f m := by
  rw [overruns_cons (by simp)]
  simp [Overruns]

theorem overruns_token (hm : k ≠ .multi) (hs : k ≠ .single) :
    Overruns (k :: f) (l :: m) ↔ l.equals k ∧ Overruns f m := by
  rw [overruns_cons hm]
  simp only [matches_token hm hs, Overruns]
  constructor
  · rintro (⟨h, -⟩ | ⟨f', n, hf, he, h⟩)
    · cases h
    · exact ⟨he, f', n, hf, h⟩
  · rintro ⟨he, f', n, hf, h⟩
    exact .inr ⟨f', n, hf, he, h⟩

theorem Overruns.not_matches (h : Overruns f m) (hf : Token.multi ∉ f.dropLast) :
    ¬ Matches f m := by
  obtain ⟨f', n, rfl, hm⟩ := h
  intro h
  have hlen := h.length_le
  have hf' : Token.multi ∉ f' := fun h' => hf (by simp [overrun, ← List.append_assoc, h'])
  rw [← hm.length_eq hf'] at hlen
  simp [overrun] at hlen

theorem multi_of_cons (h : Token.multi ∉ (k :: f).dropLast) :
    (k = .multi → f = []) ∧ Token.multi ∉ f.dropLast := by
  cases f with
  | nil => simp
  | cons l f =>
    rw [List.dropLast_cons_cons, List.mem_cons, not_or] at h
    exact ⟨fun hk => absurd hk.symm h.1, h.2⟩

namespace Topic

variable {o : Option (List Token)}

@[simp] theorem matchLoop_multi : matchLoop o i (.multi :: f) = some true := by simp [matchLoop]

@[simp] theorem matchLoop_single : matchLoop o i (.single :: f) = matchLoop o (i + 1) f := by
  simp [matchLoop]

theorem matchLoop_token (hm : k ≠ .multi) (hs : k ≠ .single) :
    matchLoop (some m) i (k :: f) = some true ↔
      ∃ l, m[i]? = some l ∧ l.equals k ∧ matchLoop (some m) (i + 1) f = some true := by
  rw [matchLoop, if_pos ⟨hm, hs⟩, Option.bind_some]
  cases m[i]? with
  | none => simp
  | some l => by_cases h : l.equals k <;> simp [h]

theorem matchLoop_returns : ∃ b, matchLoop (some m) i f = some b := by
  induction f generalizing i with
  | nil => exact ⟨_, rfl⟩
  | cons k f ih =>
    by_cases hm : k = .multi
    · subst hm; exact ⟨true, matchLoop_multi⟩
    by_cases hs : k = .single
    · subst hs; rw [matchLoop_single]; exact ih
    rw [matchLoop, if_pos ⟨hm, hs⟩, Option.bind_some]
    cases m[i]? with
    | none => exact ⟨false, rfl⟩
    | some l =>
      by_cases he : l.equals k
      · simp only [he, if_true]; exact ih
      · exact ⟨false, by simp [he]⟩

/-- Past the end of the message topic the loop finds only the multi-level wildcard. -/
theorem matchLoop_past (hf : Token.multi ∉ f.dropLast) (hi : m.length < i) :
    matchLoop (some m) i f = some true ↔ ∃ n, f = overrun n := by
  induction f generalizing i with
  | nil =>
    simp [matchLoop, overrun]
    omega
  | cons k f ih =>
    obtain ⟨hk, hf'⟩ := multi_of_cons hf
    rw [cons_eq_overrun]
    by_cases hm : k = .multi
    · subst hm; simp [hk rfl]
    by_cases hs : k = .single
    · subst hs; simp [ih hf' (Nat.lt_succ_of_lt hi)]
    · rw [matchLoop_token hm hs, List.getElem?_eq_none hi.le]
      simp [hm, hs]

/-- The loop finds what the rules find, and overruns. -/
theorem matchLoop_eq_true (hf : Token.multi ∉ f.dropLast) (hi : i ≤ m.length) :
    matchLoop (some m) i f = some true ↔ Matches f (m.drop i) ∨ Overruns f (m.drop i) := by
  induction f generalizing i with
  | nil =>
    have hm : Matches [] (m.drop i) ↔ i = m.length := by
      constructor
      · intro h
        have : 0 = m.length - i := by simpa using h.length_eq List.not_mem_nil
        omega
      · intro h
        rw [h, List.drop_length]
        exact .nil
    have ho : ¬ Overruns [] (m.drop i) := by rintro ⟨f', n, h, -⟩; simp [overrun] at h
    rw [hm, or_iff_left ho]
    simp [matchLoop]
  | cons k f ih =>
    obtain ⟨hk, hf'⟩ := multi_of_cons hf
    by_cases hm : k = .multi
    · subst hm; simp [hk rfl, Matches.multi]
    rcases Nat.lt_or_eq_of_le hi with hlt | heq
    · rw [List.drop_eq_getElem_cons hlt]
      by_cases hs : k = .single
      · subst hs
        rw [matchLoop_single, ih hf' hlt, matches_single, overruns_single]
      · rw [matchLoop_token hm hs, matches_token hm hs, overruns_token hm hs,
          List.getElem?_eq_getElem hlt, ih hf' hlt, ← and_or_left]
        simp
    · rw [heq, List.drop_length, matches_nil, overruns_nil hm]
      by_cases hs : k = .single
      · subst hs
        rw [matchLoop_single, matchLoop_past hf' (Nat.lt_succ_self _)]
        simp
      · rw [matchLoop_token hm hs]
        simp [hm, hs]

end Topic

end ImProxy
