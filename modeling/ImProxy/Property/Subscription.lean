import ImProxy.Gateway.Scenario
import ImProxy.Invariant.Local
import ImProxy.Mqtt.Wildcard

/-! # A SUBSCRIBE is answered

The handler of a SUBSCRIBE writes one packet, a SUBACK on its own channel with one
return code for each filter. A code is the requested QoS exactly if the filter obeys
the wildcard rules, so an empty filter is granted as well.
-/

set_option autoImplicit false

namespace ImProxy

open Transition Topic

variable {g : Gateway} {s s' t u : State} {x : ChannelId} {a : Action} {as : List Action}
  {msg : MqttSubscribeMessage} {p : MqttMessage}

/-- A topic filter that is legal as to length and wildcards. -/
def LegalFilter (f : String) : Prop := f ≠ "" ∧ WildcardRules (levels f.toList)

instance (f : String) : Decidable (LegalFilter f) := inferInstanceAs (Decidable (_ ∧ _))

/-- The return code for a filter. -/
def returnCode (r : MqttTopicSubscription) : ℕ :=
  if LegalFilter r.topicName then r.qualityOfService.value else 0x80

/-- A SUBACK with the id of a SUBSCRIBE and one return code for each of its filters. -/
def Grants (msg : MqttSubscribeMessage) (p : MqttMessage) : Prop :=
  p.fixedHeader.messageType = .subAck ∧
    p.body = .subAck msg.messageId (msg.topicSubscriptions.map returnCode)

def Busy (x : ChannelId) : Condition State Action := fun s _ => s.frame (.loop x) ≠ .idle

instance {x : ChannelId} (s : State) : DecidablePred (Busy x s) := fun _ =>
  decidable_of_iff ((s.frame (.loop x)).isIdle = false) (by simp [Busy, ← Frame.isIdle_iff])

def State.wrote (g : Gateway) (s : State) (x : ChannelId) (a : Action) :
    Option (ChannelId × MqttMessage) :=
  match a with
  | .run t choice =>
    if t = .loop x then
      match next g s t choice (s.frame t) with
      | some (.write y p, _) => some (y, p)
      | _ => none
    else none
  | _ => none

def written (g : Gateway) (x : ChannelId) : List Action → State → List (ChannelId × MqttMessage)
  | [], _ => []
  | a :: as, s =>
    (s.wrote g x a).toList ++ (State.step g a s).elim [] (written g x as)

theorem written_concat (h : (gateway g).run as s = some t) :
    written g x (as ++ [a]) s = written g x as s ++ (t.wrote g x a).toList := by
  induction as generalizing s with
  | nil =>
    cases h
    simp only [List.nil_append, written]
    cases State.step g a t <;> simp
  | cons b as ih =>
    obtain ⟨u, hu, h⟩ := Option.bind_eq_some_iff.mp h
    have hu : State.step g b s = some u := hu
    simp only [List.cons_append, written, hu, Option.elim_some, ih h, List.append_assoc]

theorem wrote_eq_none (ha : ¬ ∃ choice, a = .run (.loop x) choice) : s.wrote g x a = none := by
  cases a with
  | run t choice => exact if_neg fun ht => ha ⟨choice, congrArg (Action.run · choice) ht⟩
  | _ => rfl

theorem reply_written (hs : s.frame (.loop x) = .reply x p)
    (h : (gateway g).Path (Busy x) s as t) :
    t.frame (.loop x) = .reply x p ∧ written g x as s = [] ∨
      t.frame (.loop x) = .idle ∧ written g x as s = [(x, p)] := by
  refine h.history (P := fun as t => t.frame (.loop x) = .reply x p ∧ written g x as s = [] ∨
    t.frame (.loop x) = .idle ∧ written g x as s = [(x, p)]) (.inl ⟨hs, rfl⟩) ?_
  rintro as a u v hu (⟨hf, hw⟩ | ⟨hf, -⟩) hb hv
  · rw [written_concat (System.path_iff_run.mp hu.forget), hw, List.nil_append]
    have hv := gateway_step.mp hv
    by_cases ha : ∃ choice, a = .run (.loop x) choice
    · obtain ⟨choice, rfl⟩ := ha
      cases hv with
      | run hn =>
        have hwrote : u.wrote g x (.run (.loop x) choice) = some (x, p) := by
          simp [State.wrote, hf, next]
        rw [hf] at hn
        cases hn
        exact .inr ⟨State.setFrame_frame_self _ _ _, by rw [hwrote]; rfl⟩
    · rw [wrote_eq_none ha, (busy_frame hb hv).resolve_left ha]
      exact .inl ⟨hf, rfl⟩
  · exact absurd hf hb

theorem doVerify_codes (msg : MqttSubscribeMessage) :
    (doVerify msg).map (·.qualityOfService.value) = msg.topicSubscriptions.map fun r =>
      if WildcardRules (levels r.topicName.toList) then r.qualityOfService.value else 0x80 := by
  rw [doVerify, List.map_map]
  refine List.map_congr_left fun r _ => ?_
  have hv : (asTopic r.topicName).isValid.1 = true ↔ WildcardRules (levels r.topicName.toList) := by
    rw [isValid_eq]; exact valid_iff_rules
  simp only [Function.comp, ← hv, asTopic]
  split_ifs <;> rfl

theorem code_eq_returnCode (r : MqttTopicSubscription) :
    (if WildcardRules (levels r.topicName.toList) then r.qualityOfService.value else 0x80) =
      returnCode r ↔ (r.topicName = "" → r.qualityOfService = .failure) := by
  by_cases he : r.topicName = ""
  · have hrules : WildcardRules (levels r.topicName.toList) := by rw [he]; decide
    rw [if_pos hrules, returnCode, if_neg (show ¬ LegalFilter r.topicName from fun h => h.1 he)]
    cases r.qualityOfService <;> simp [he, MqttQoS.value]
  · have hlegal : LegalFilter r.topicName ↔ WildcardRules (levels r.topicName.toList) :=
      and_iff_right he
    simp [returnCode, hlegal, he]

theorem grants_iff :
    Grants msg (doAckMessageFromValidateFilters (doVerify msg) msg.messageId) ↔
      ∀ r ∈ msg.topicSubscriptions, r.topicName = "" → r.qualityOfService = .failure := by
  simp only [Grants, doAckMessageFromValidateFilters, fixedHeader, true_and, doVerify_codes,
    PacketBody.subAck.injEq, List.map_inj_left, code_eq_returnCode]

/-- The handler of a SUBSCRIBE returns at its next statement, and by then it has written one
SUBACK with the right codes exactly if no filter is empty. -/
theorem subscribe_acknowledged_iff (h : Step g s (.read x (.subscribe msg)) s') :
    (∀ as t, (gateway g).Path (Busy x) s' as t → t.frame (.loop x) ≠ .idle →
      ∃ u, Step g t (.run (.loop x) .proceed) u ∧ u.frame (.loop x) = .idle) ∧
    ∀ as t, (gateway g).Path (Busy x) s' as t → t.frame (.loop x) = .idle →
      ((∃ p, written g x as s' = [(x, p)] ∧ Grants msg p) ↔
        ∀ r ∈ msg.topicSubscriptions, r.topicName = "" → r.qualityOfService = .failure) := by
  have hf : s'.frame (.loop x) =
      .reply x (doAckMessageFromValidateFilters (doVerify msg) msg.messageId) := by
    cases h with
    | read _ _ => exact State.start_frame_self _ _ _ _
  constructor
  · intro as t hp hb
    rcases reply_written hf hp with ⟨ht, -⟩ | ⟨ht, -⟩
    · exact ⟨_, .run (by rw [ht]; rfl), State.setFrame_frame_self _ _ _⟩
    · exact absurd ht hb
  · intro as t hp ht
    rcases reply_written hf hp with ⟨hb, -⟩ | ⟨-, hw⟩
    · rw [hb] at ht; cases ht
    · rw [← grants_iff, hw]
      constructor
      · rintro ⟨p, hp, hg⟩
        cases hp
        exact hg
      · exact fun hg => ⟨_, rfl, hg⟩

def subscribeTo (filters : List String) : MqttSubscribeMessage where
  messageId := 7
  topicSubscriptions := filters.map fun f => ⟨f, .atLeastOnce⟩

def subscribed (filters : List String) : List Action :=
  [.read 0 (.subscribe (subscribeTo filters))]

theorem subscribe_acknowledged_twoFilters :
    (∃ p, written ascii 0 [.run (.loop 0) .proceed] (after (subscribed ["a/+", "a#"])) =
      [(0, p)] ∧ Grants (subscribeTo ["a/+", "a#"]) p) ↔
      ∀ r ∈ (subscribeTo ["a/+", "a#"]).topicSubscriptions, r.topicName = "" →
        r.qualityOfService = .failure :=
  have hs : Step ascii (after []) (.read 0 (.subscribe (subscribeTo ["a/+", "a#"])))
      (after (subscribed ["a/+", "a#"])) := step_after rfl (by decide)
  have hp : (gateway ascii).Path (Busy 0) (after (subscribed ["a/+", "a#"]))
      [.run (.loop 0) .proceed]
      (after (subscribed ["a/+", "a#"] ++ [.run (.loop 0) .proceed])) :=
    path_after (by decide) (by decide)
  (subscribe_acknowledged_iff hs).2 _ _ hp (Frame.isIdle_iff.mp (by decide))

theorem subscribe_empty_granted : ∃ s s' t,
    (gateway ascii).Reachable s ∧ Step ascii s (.read 0 (.subscribe (subscribeTo [""]))) s' ∧
      (gateway ascii).Path (Busy 0) s' [.run (.loop 0) .proceed] t ∧
      t.frame (.loop 0) = .idle ∧
      written ascii 0 [.run (.loop 0) .proceed] s' =
        [(0, ⟨fixedHeader .subAck .atMostOnce, .subAck 7 [1]⟩)] ∧
      ¬ Grants (subscribeTo [""]) ⟨fixedHeader .subAck .atMostOnce, .subAck 7 [1]⟩ :=
  have hs : Step ascii (after []) (.read 0 (.subscribe (subscribeTo [""])))
      (after (subscribed [""])) := step_after rfl (by decide)
  ⟨.init ascii, after (subscribed [""]),
    after (subscribed [""] ++ [.run (.loop 0) .proceed]), .init, hs,
    path_after (by decide) (by decide), Frame.isIdle_iff.mp (by decide), by decide,
    by simp [Grants, subscribeTo, returnCode, LegalFilter]⟩

end ImProxy
