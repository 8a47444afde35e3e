import ImProxy.Mqtt.Matching
import ImProxy.Transition.System

/-! # What a topic promises

The validity of a topic is that of its wildcards, whatever was called before. A
parse keeps all levels unless two separators end the topic. The matcher agrees with
the recursive rules unless the filter runs past the message topic on single-level
wildcards before the multi-level wildcard.
-/

set_option autoImplicit false

namespace ImProxy

open Transition Topic

variable {s : String} {t u : Topic} {k l : Token} {f m : List Token} {i n : ℕ}

/-- The calls on a topic. A topic matched with itself caches what it does as a message topic. -/
inductive TopicCall
  | getTokens
  | isValid
  | matchTopic (subscriptionTopic : Topic)
  | matchedBy (messageTopic : Topic)

def TopicCall.call : TopicCall → Topic → Option Topic
  | .getTokens, t => some t.getTokens
  | .isValid, t => some t.isValid.2
  | .matchTopic u, t => (t.matchTopic u).1.map fun _ => (t.matchTopic u).2.1
  | .matchedBy u, t => (u.matchTopic t).1.map fun _ => (u.matchTopic t).2.2

def topicCalls (s : String) : System Topic TopicCall where
  init := asTopic s
  step := TopicCall.call

theorem TopicCall.call_eq {c : TopicCall} (h : c.call t = some u) : u = t.getTokens := by
  cases c with
  | getTokens => exact (Option.some.inj h).symm
  | isValid => rw [TopicCall.call, isValid_eq] at h; exact (Option.some.inj h).symm
  | matchTopic v => obtain ⟨b, -, rfl⟩ := Option.map_eq_some_iff.mp h; rfl
  | matchedBy v => obtain ⟨b, -, rfl⟩ := Option.map_eq_some_iff.mp h; rfl

theorem topic_cached (h : (topicCalls s).Reachable t) :
    t = asTopic s ∨ t = (asTopic s).getTokens := by
  refine h.invariant (P := fun t => t = asTopic s ∨ t = (asTopic s).getTokens) (.inl rfl) ?_
  rintro c t u - ht hs
  right
  rw [TopicCall.call_eq hs]
  rcases ht with rfl | rfl
  · rfl
  · exact getTokens_getTokens _

theorem topic_getTokens (h : (topicCalls s).Reachable t) :
    t.getTokens = (asTopic s).getTokens := by
  rcases topic_cached h with rfl | rfl
  · rfl
  · exact getTokens_getTokens _

/-- A topic is valid exactly if its levels obey the wildcard rules, and its wildcard tokens are
then the shared ones. -/
theorem valid_iff_wildcardRules (h : (topicCalls s).Reachable t) :
    (t.isValid.1 = true ↔ WildcardRules (levels s.toList)) ∧
    (t.isValid.1 = true → ∃ ts, t.getTokens.tokens = some ts ∧
      ∀ k ∈ ts, (k.name = "#" → k = .multi) ∧ (k.name = "+" → k = .single)) := by
  rw [isValid_eq, topic_getTokens h]
  refine ⟨valid_iff_rules, fun hv => ⟨_, tokens_of_valid hv, ?_⟩⟩
  intro k hk
  obtain ⟨l, -, rfl⟩ := List.mem_map.mp hk
  exact ⟨levelToken_multi, levelToken_single⟩

theorem valid_after_match :
    ((asTopic "a/+/#").getTokens.isValid.1 = true ↔
      WildcardRules (levels "a/+/#".toList)) ∧
    ((asTopic "a/+/#").getTokens.isValid.1 = true →
      ∃ ts, (asTopic "a/+/#").getTokens.getTokens.tokens = some ts ∧
        ∀ k ∈ ts, (k.name = "#" → k = .multi) ∧ (k.name = "+" → k = .single)) :=
  valid_iff_wildcardRules
    ⟨[.matchedBy (asTopic "a")], .single trivial (by decide +kernel)⟩

/-- What a parse must give: one token per level, whose names are the topic. -/
structure KeepsLevels (s : String) (ts : List Token) : Prop where
  level : ts.map Token.name = (levels s.toList).map String.ofList
  join : "/".intercalate (ts.map Token.name) = s

theorem keepsLevels_iff_kept {ls : List (List Char)} :
    KeepsLevels s (ls.map levelToken) ↔ ls = levels s.toList := by
  have hnames : (ls.map levelToken).map Token.name = ls.map String.ofList := by
    rw [List.map_map]; exact List.map_congr_left fun l _ => levelToken_name l
  constructor
  · rintro ⟨hl, -⟩
    rw [hnames] at hl
    exact List.map_injective_iff.mpr (fun _ _ => String.ofList_injective) hl
  · rintro rfl
    refine ⟨hnames, ?_⟩
    rw [hnames, ← String.toList_inj, String.toList_intercalate, List.map_map]
    have : String.toList ∘ String.ofList = id := funext fun _ => String.toList_ofList
    rw [this, List.map_id]
    exact List.intercalate_splitOn _

/-- A valid topic keeps its levels exactly if no two separators end it, and two valid topics
have different tokens exactly if they are not one text with different numbers of
separators at the end. -/
theorem keepsLevels_iff (hs : (asTopic s).isValid.1 = true) :
    ((∃ ts, (asTopic s).getTokens.tokens = some ts ∧ KeepsLevels s ts) ↔
      ¬ ['/', '/'] <:+ s.toList) ∧
    ∀ s', (asTopic s').isValid.1 = true → s ≠ s' →
      ((asTopic s).getTokens.tokens ≠ (asTopic s').getTokens.tokens ↔
        ¬ ∃ u m n, s.toList = u ++ List.replicate (m + 1) '/' ∧
          s'.toList = u ++ List.replicate (n + 1) '/') := by
  rw [isValid_eq] at hs
  constructor
  · rw [← kept_eq_levels, tokens_of_valid hs]
    constructor
    · rintro ⟨ts, ⟨⟩, h⟩
      exact keepsLevels_iff_kept.mp h
    · intro h
      exact ⟨_, rfl, keepsLevels_iff_kept.mpr h⟩
  · intro s' hs' hne
    rw [isValid_eq] at hs'
    rw [tokens_of_valid hs, tokens_of_valid hs', ne_eq, not_iff_not, Option.some_inj]
    have hinj : Function.Injective levelToken := fun l l' h =>
      String.ofList_injective (by rw [← levelToken_name, h, levelToken_name])
    rw [(List.map_injective_iff.mpr hinj).eq_iff, kept_eq_kept, String.toList_inj,
      or_iff_right hne]

theorem keepsLevels_slash :
    (∃ ts, (asTopic "/a/").getTokens.tokens = some ts ∧ KeepsLevels "/a/" ts) ∧
      (asTopic "/a/").getTokens.tokens ≠ (asTopic "/a").getTokens.tokens := by
  have h := @keepsLevels_iff "/a/" (by decide)
  constructor
  · exact h.1.mpr (by decide)
  · refine (h.2 "/a" (by decide) (by decide)).mpr ?_
    rintro ⟨u, m, n, -, h⟩
    simpa [List.replicate_succ'] using congrArg List.getLast? h

theorem parse_loses_level :
    (asTopic "a//").isValid.1 = true ∧ (asTopic "a/").isValid.1 = true ∧
      (asTopic "a//").getTokens.tokens = (asTopic "a/").getTokens.tokens ∧
      ¬ ∃ ts, (asTopic "a//").getTokens.tokens = some ts ∧ KeepsLevels "a//" ts := by
  refine ⟨by decide, by decide, by decide, ?_⟩
  rintro ⟨ts, hts, h⟩
  have : ts = [.named "a", .empty] := Option.some.inj (hts.symm.trans (by decide))
  have := h.level
  subst ts
  exact absurd this (by decide)

/-- A match agrees with the recursive rules exactly if the filter does not overrun the topic. -/
theorem match_iff_matches {m f : String} (hm : '#' ∉ m.toList ∧ '+' ∉ m.toList)
    (ht : (topicCalls m).Reachable t) (hu : (topicCalls f).Reachable u)
    (hf : u.isValid.1 = true) :
    ∃ ms fs b, t.getTokens.tokens = some ms ∧ u.getTokens.tokens = some fs ∧
      (t.matchTopic u).1 = some b ∧ ((b = true ↔ Matches fs ms) ↔ ¬ Overruns fs ms) := by
  rw [isValid_eq, topic_getTokens hu] at hf
  have hms := tokens_of_valid (valid_iff_rules.mpr (wildcardRules_of_not_mem hm.1 hm.2))
  have hfs := tokens_of_valid hf
  have hlast := multi_not_mem_dropLast (wildcardRules_kept (valid_iff_rules.mp hf))
  rw [matchTopic, topic_getTokens ht, topic_getTokens hu, hms, hfs, Option.bind_some]
  obtain ⟨b, hb⟩ := matchLoop_returns (m := (kept m.toList).map levelToken) (i := 0)
    (f := (kept f.toList).map levelToken)
  have hmatch := matchLoop_eq_true hlast (Nat.zero_le ((kept m.toList).map levelToken).length)
  rw [hb, Option.some_inj, List.drop_zero] at hmatch
  refine ⟨_, _, b, rfl, rfl, hb, ?_⟩
  rw [hmatch]
  constructor
  · intro h ho
    exact ho.not_matches hlast (h.mp (.inr ho))
  · intro ho
    exact or_iff_left ho

theorem match_single_level :
    ∃ ms fs b, (asTopic "a/b").getTokens.tokens = some ms ∧
      (asTopic "a/+").getTokens.tokens = some fs ∧
      ((asTopic "a/b").matchTopic (asTopic "a/+")).1 = some b ∧
      ((b = true ↔ Matches fs ms) ↔ ¬ Overruns fs ms) :=
  match_iff_matches (by decide) (t := asTopic "a/b") (u := asTopic "a/+") .init .init (by decide)

theorem match_missing_level :
    (asTopic "a").getTokens.tokens = some [.named "a"] ∧
      (asTopic "a/+/#").getTokens.tokens = some [.named "a", .single, .multi] ∧
      (asTopic "a/+/#").isValid.1 = true ∧
      ((asTopic "a").matchTopic (asTopic "a/+/#")).1 = some true ∧
      ¬ Matches [.named "a", .single, .multi] [.named "a"] := by
  refine ⟨by decide, by decide, by decide, by decide, ?_⟩
  rw [matches_token (by decide) (by decide), matches_nil]
  decide

end ImProxy
