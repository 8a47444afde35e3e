import ImProxy.Invariant.Entry

/-! # The call that closes a connection

An immediate close posts a close to the event loop of the descriptor's channel and
returns true. A graceful one first compares and sets the state of the descriptor, from
a state that no code path enters, so it returns false and closes nothing. For a client
id that is not registered the call returns false and changes nothing.
-/

set_option autoImplicit false

namespace ImProxy

open Transition

variable {g : Gateway} {s s' t u : State} {n : ℕ} {c : String} {now b : Bool} {d : Descriptor}
  {as : List Action} {choice : Choice}

def Returns (n : ℕ) (b : Bool) (s : State) : Prop :=
  s.frame (.server n) = .closeConnection (.returned b)

def Pending (n : ℕ) : Condition State Action := fun s _ => ∀ b, ¬ Returns n b s

def Frame.isReturned : Frame → Bool
  | .closeConnection (.returned _) => true
  | _ => false

theorem not_isReturned_iff : (s.frame (.server n)).isReturned = false ↔ ∀ b, ¬ Returns n b s := by
  unfold Returns
  generalize s.frame (.server n) = f
  cases f with
  | closeConnection l => cases l <;> simp [Frame.isReturned]
  | _ => simp [Frame.isReturned]

instance (n : ℕ) (s : State) : DecidablePred (Pending n s) := fun _ =>
  decidable_of_iff _ not_isReturned_iff

/-- A thread has posted the close of a channel to its event loop, where it stays posted until
it closes the channel. -/
structure Closes (g : Gateway) (n : ℕ) (y : ChannelId) (s : State) : Prop where

  posted : Task.close ∈ (s.channel y).tasks (.server n)

  closed : ∀ as t, (gateway g).Path System.always s as t →
    Task.close ∈ (t.channel y).tasks (.server n) ∨ (t.channel y).isOpen = false

def Called (now : Bool) (d : Descriptor) (n : ℕ) (s : State) : Prop :=
  if now then s.frame (.server n) = .closeConnection (.abort d) ∨
    Returns n true s ∧ Task.close ∈ (s.channel d.channel).tasks (.server n)
  else s.frame (.server n) = .closeConnection (.assign d) ∨ Returns n false s

theorem Called.lookup (hf : s.frame (.server n) = .closeConnection (.get c now))
    (hd : s.connectionDescriptors.get c = some d)
    (h : Step g s (.run (.server n) choice) s') : Called now d n s' := by
  cases h with
  | run hn =>
    rw [hf] at hn
    cases next_statement hn with
    | closeNone hnone => cases hd.symm.trans hnone
    | closeNow he => cases hd.symm.trans he; exact .inl (State.setFrame_frame_self _ _ _)
    | closeGracefully he => cases hd.symm.trans he; exact .inl (State.setFrame_frame_self _ _ _)

theorem Called.step (hr : (gateway g).Reachable s) (h : Called now d n s)
    (hp : ∀ b, ¬ Returns n b s) (hs : Step g s (.run (.server n) choice) s') :
    Called now d n s' ∧ ∃ b, Returns n b s' := by
  cases hs with
  | @run _ _ i f hn =>
    unfold Called at h
    split_ifs at h with hnow
    · subst hnow
      rcases h with hf | ⟨hf, -⟩
      · rw [hf] at hn
        cases hn
        refine ⟨.inr ⟨State.setFrame_frame_self _ _ _, ?_⟩, true, State.setFrame_frame_self _ _ _⟩
        rw [State.setFrame_channel, State.exec_tasks]
        simp
      · exact absurd hf (hp true)
    · rcases h with hf | hf
      · rw [hf] at hn
        cases next_statement hn with
        | closeAssign hd =>
          obtain ⟨e, he, hst⟩ := Option.map_eq_some_iff.mp hd
          exact absurd hst (reachable_neverNotified hr _ e (List.mem_of_getElem? he))
        | closeAssignFailed =>
          exact ⟨by simp [Called, hnow, Returns], false, State.setFrame_frame_self _ _ _⟩
      · exact absurd hf (hp false)

/-- Until it has its result the call stands at one of its statements, whatever others do. -/
theorem Called.path (hr : (gateway g).Reachable s) (h : Called now d n s)
    (hp : (gateway g).Path (Pending n) s as t) : Called now d n t := by
  have : Called now d n t ∧ (gateway g).Reachable t := by
    refine hp.invariant (P := fun t => Called now d n t ∧ (gateway g).Reachable t) ⟨h, hr⟩ ?_
    rintro a u v ⟨hu, hru⟩ hpu hs
    refine ⟨?_, hru.step hs⟩
    have hs := gateway_step.mp hs
    by_cases ha : ∃ choice, a = .run (.server n) choice
    · obtain ⟨choice, rfl⟩ := ha
      exact (hu.step hru hpu hs).1
    · unfold Called at hu ⊢
      split_ifs at hu ⊢ with hnow
      · have hf := hu.resolve_right fun h => hpu true h.1
        exact .inl (((busy_frame (by simp [hf]) hs).resolve_left ha).trans hf)
      · have hf := hu.resolve_right (hpu false)
        exact .inl (((busy_frame (by simp [hf]) hs).resolve_left ha).trans hf)
  exact this.1

theorem Called.enabled (h : Called now d n s) (hp : ∀ b, ¬ Returns n b s) :
    ∃ s', Step g s (.run (.server n) .proceed) s' := by
  unfold Called at h
  split_ifs at h with hnow
  · rcases h with hf | ⟨hf, -⟩
    · exact ⟨_, .run (by rw [hf]; rfl)⟩
    · exact absurd hf (hp true)
  · rcases h with hf | hf
    · exact ⟨_, .run (by rw [hf]; rfl)⟩
    · exact absurd hf (hp false)

theorem Called.result (h : Called now d n s) (hb : Returns n b s) :
    (b = true ∧ Closes g n d.channel s) ↔ now = true := by
  unfold Called at h
  split_ifs at h with hnow
  · rcases h with hf | ⟨hf, hk⟩
    · rw [Returns, hf] at hb; cases hb
    · rw [Returns, hf] at hb
      cases hb
      simp only [hnow, iff_true, true_and]
      exact ⟨hk, fun as t hp => close_posted_path hp hk⟩
  · rcases h with hf | hf
    · rw [Returns, hf] at hb; cases hb
    · rw [Returns, hf] at hb
      cases hb
      simp [hnow]

/-- For a registered client id the call gets its result at the statement after the lookup, and
it returns true and closes the channel exactly if it closes immediately. For any other client id
it returns false and changes nothing but its own frame. -/
theorem closeConnection_iff (hr : (gateway g).Reachable s)
    (hf : s.frame (.server n) = .closeConnection (.get c now))
    (h : Step g s (.run (.server n) choice) s') :
    (∀ d, s.connectionDescriptors.get c = some d → s.descriptorState d = some .established →
      (∀ as t, (gateway g).Path (Pending n) s' as t → (∀ b, ¬ Returns n b t) →
        ∃ u b, Step g t (.run (.server n) .proceed) u ∧ Returns n b u) ∧
      ∀ as t b, (gateway g).Path (Pending n) s' as t → Returns n b t →
        ((b = true ∧ Closes g n d.channel t) ↔ now = true)) ∧
    (s.connectionDescriptors.get c = none →
      s' = s.setFrame (.server n) (.closeConnection (.returned false)) ∧
      ∀ t u choice, Returns n false t → Step g t (.run (.server n) choice) u →
        u = t.setFrame (.server n) .idle) := by
  have hr' := hr.step (gateway_step.mpr h)
  refine ⟨fun d hd _ => ⟨fun as t hp ht => ?_, fun as t b hp hb => ?_⟩, fun hnone => ⟨?_, ?_⟩⟩
  · have hcalled := (Called.lookup hf hd h).path hr' hp
    obtain ⟨u, hu⟩ := hcalled.enabled ht
    obtain ⟨b, hb⟩ := (hcalled.step (hr'.path hp) ht hu).2
    exact ⟨u, b, hu, hb⟩
  · exact ((Called.lookup hf hd h).path hr' hp).result hb
  · cases h with
    | run hn =>
      rw [hf] at hn
      cases next_statement hn with
      | closeNone => rfl
      | closeNow hd | closeGracefully hd => cases hnone.symm.trans hd
  · rintro t u choice ht (hs : Step g t (.run (.server n) choice) u)
    cases hs with
    | run hn =>
      rw [ht] at hn
      cases hn
      rfl

def closeCalled (now : Bool) : List Action := join 0 "a" ++ [.call 0 (.closeConnection "a" now)]

theorem closeConnection_now :
    Closes ascii 0 0 (after (closeCalled true ++ [.run (.server 0) .proceed] ++
      [.run (.server 0) .proceed])) := by
  have hr : (gateway ascii).Reachable (after (closeCalled true)) := reachable_after (by decide)
  have hs : Step ascii (after (closeCalled true)) (.run (.server 0) .proceed)
      (after (closeCalled true ++ [.run (.server 0) .proceed])) :=
    step_after (by decide) (by decide)
  have h := (closeConnection_iff hr rfl hs).1 ⟨"a", 0, true, 0⟩ (by decide) (by decide)
  exact ((h.2 [.run (.server 0) .proceed] _ true
    (path_after (by decide) (by decide)) rfl).mpr rfl).2

theorem graceful_close_fails : ∃ s,
    (gateway ascii).run (closeCalled false) (.init ascii) = some s ∧
      s.connectionDescriptors.get "a" = some ⟨"a", 0, true, 0⟩ ∧
      s.descriptorState ⟨"a", 0, true, 0⟩ = some .established ∧
      ∃ t, (gateway ascii).run [.run (.server 0) .proceed, .run (.server 0) .proceed] s = some t ∧
        Returns 0 false t ∧ (t.channel 0).isOpen = true ∧
        (t.channel 0).tasks (.server 0) = [] :=
  ⟨after (closeCalled false), run_after (by decide), by decide, by decide,
    _, rfl, rfl, by decide, by decide⟩

end ImProxy
