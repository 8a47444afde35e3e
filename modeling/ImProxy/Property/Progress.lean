import ImProxy.Gateway.Scenario

/-! # Handlers end

No handler waits for another one: wherever the other threads stand, a thread inside a
handler has a step to take. With the other threads at rest every step brings it closer to
the end, whatever order its iterator reads the registry in. A handler that has just started
ends after a number of steps that is linear in the number of registered clients.
-/

set_option autoImplicit false

namespace ImProxy

open Concurrent Transition

variable {g : Gateway} {s s' : State} {t : Thread} {choice : Choice} {f f' : Frame} {i : Instr}
  {as : List Action} {it it' : Cursor} {m : Map String Descriptor}

/-! ## Remaining steps -/

/-- A bound on the steps of a loop over the registry: five for an entry that is read and one more
for an entry that is not. -/
def sweepSteps (m : Map String Descriptor) (it : Cursor) : ℕ :=
  6 * it.unread m + 5 * it.pending.length + 1

def ConnectLine.stepsLeft : ConnectLine → ℕ
  | .get => 19
  | .put _ => 18
  | .evictWrite _ => 17
  | .evictAbort _ => 16
  | .keepAlive => 15
  | .cleanSession => 14
  | .clientID => 13
  | .idleTime => 12
  | .sendAck => 11
  | .connAck => 10
  | .republish => 9
  | .autoFlusher => 8
  | .established => 7
  | .rollbackClose _ => 6
  | .rollbackRemove _ => 5
  | .app => 4
  | .imId => 3
  | .token => 2

def PushLine.stepsLeft (m : Map String Descriptor) : PushLine → ℕ
  | .iterator => 6 * m.keys.card + 2
  | .loop it => sweepSteps m it
  | .filter it _ => sweepSteps m it + 4
  | .app it _ => sweepSteps m it + 3
  | .imId it _ => sweepSteps m it + 2
  | .write it _ => sweepSteps m it + 1

/-- A bound on the steps to the end of a handler. -/
def Frame.stepsLeft (m : Map String Descriptor) : Frame → ℕ
  | .idle => 0
  | .reply _ _ => 1
  | .refuse _ _ => 2
  | .close _ => 1
  | .connect _ _ l => l.stepsLeft
  | .pubAck _ _ _ .isConnected => 6 * m.keys.card + 5
  | .pubAck _ _ _ .get => 6 * m.keys.card + 4
  | .pubAck _ _ _ (.write _) => 6 * m.keys.card + 3
  | .push _ _ _ l => l.stepsLeft m
  | .disconnect _ (.get _) => 3
  | .disconnect _ (.abortOther _) => 1
  | .disconnect _ (.abort _) => 2
  | .disconnect _ (.remove _) => 1
  | .connectionLost _ _ => 2
  | .inactiveClose _ => 1
  | .notifyAll .iterator => 6 * m.keys.card + 2
  | .notifyAll (.loop it) => sweepSteps m it
  | .notifyAll (.abort it _) => sweepSteps m it + 1
  | .closeWithMessage (.get _) => 3
  | .closeWithMessage (.write _) => 2
  | .closeWithMessage (.abort _) => 1
  | .closeConnection (.get _ _) => 4
  | .closeConnection (.assign _) => 3
  | .closeConnection (.abort _) => 2
  | .closeConnection (.close _) => 2
  | .closeConnection (.returned _) => 1

def State.stepsLeft (s : State) (t : Thread) : ℕ := (s.frame t).stepsLeft s.connectionDescriptors

theorem sweepSteps_create : sweepSteps m (Iterator.create m) < 6 * m.keys.card + 2 := by
  have := (Iterator.create m).unread_le (m := m)
  simp only [sweepSteps, Iterator.create, List.length_nil] at this ⊢
  omega

theorem sweepSteps_fetch {c : String} (h : it.fetch m c = some it') :
    sweepSteps m it' < sweepSteps m it := by
  obtain ⟨_, -, -, -, -, hp⟩ := Iterator.fetch_eq_some h
  have := Iterator.unread_fetch h
  simp only [sweepSteps, hp, List.length_append, List.length_singleton]
  omega

theorem sweepSteps_next {e : String × Descriptor} (h : it.next = some (e, it')) :
    sweepSteps m it' + 4 < sweepSteps m it := by
  obtain ⟨hp, -, hr⟩ := Iterator.next_eq_some h
  have : it'.unread m = it.unread m := Iterator.unread_congr (by simp [Iterator.fetched, hr, hp])
  simp only [sweepSteps, hp, List.length_cons, this]
  omega

theorem sweepSteps_pos : 0 < sweepSteps m it := Nat.succ_pos _

/-! ## Steps -/

theorem next_stepsLeft (h : next g s t choice f = some (i, f')) :
    f'.stepsLeft (s.exec t i).connectionDescriptors < f.stepsLeft s.connectionDescriptors := by
  rw [State.exec_connectionDescriptors]
  cases next_statement h with
  | pushIterator => exact sweepSteps_create
  | notifyIterator => exact sweepSteps_create
  | pushFetch hit => exact sweepSteps_fetch hit
  | notifyFetch hit => exact sweepSteps_fetch hit
  | pushNext hit => exact sweepSteps_next hit
  | notifyNext hit =>
    exact lt_of_le_of_lt (Nat.add_le_add_left (by decide : 1 ≤ 4) _) (sweepSteps_next hit)
  | pushEnd | notifyEnd => exact sweepSteps_pos
  | filterThrown => cases t <;> simp [thrown, Frame.stepsLeft, PushLine.stepsLeft, sweepSteps]
  | @notConnected x msg c l hl =>
    cases l with
    | write d => exact absurd rfl (hl d)
    | _ => simp [pushReceived, Frame.stepsLeft, PushLine.stepsLeft]
  | _ => simp [pushReceived, Frame.stepsLeft, PushLine.stepsLeft, ConnectLine.stepsLeft]

theorem exists_next (g : Gateway) (s : State) (t : Thread) (hf : f ≠ .idle) :
    ∃ choice i f', next g s t choice f = some (i, f') := by
  have sweep : ∀ it : Cursor, (∃ e it', it.next = some (e, it')) ∨
      (∃ c it', it.fetch s.connectionDescriptors c = some it') ∨
        it.Exhausted s.connectionDescriptors := by
    intro it
    by_cases hp : it.pending = []
    · by_cases hu : it.unread s.connectionDescriptors = 0
      · exact .inr (.inr (Iterator.exhausted_of hp hu))
      · exact .inr (.inl (Iterator.exists_fetch hu))
    · exact .inl (Iterator.exists_next hp)
  cases f with
  | idle => exact absurd rfl hf
  | push content clientId filtered l =>
    cases l with
    | loop it =>
      rcases sweep it with ⟨e, it', h⟩ | ⟨c, it', h⟩ | h
      · exact ⟨.proceed, _, _, by simp [next, nextPush, h]; exact ⟨rfl, rfl⟩⟩
      · exact ⟨.fetch c, _, _, by simp [next, nextPush, h]; exact ⟨rfl, rfl⟩⟩
      · exact ⟨.finish, _, _, by simp [next, nextPush, h]; exact ⟨rfl, rfl⟩⟩
    | filter it d =>
      refine ⟨.proceed, ?_⟩
      simp only [next, nextPush]
      split_ifs
      · split <;> exact ⟨_, _, rfl⟩
      · exact ⟨_, _, rfl⟩
    | _ => exact ⟨.proceed, _, _, rfl⟩
  | notifyAll l =>
    cases l with
    | loop it =>
      rcases sweep it with ⟨e, it', h⟩ | ⟨c, it', h⟩ | h
      · exact ⟨.proceed, _, _, by simp [next, nextNotifyAll, h]; exact ⟨rfl, rfl⟩⟩
      · exact ⟨.fetch c, _, _, by simp [next, nextNotifyAll, h]; exact ⟨rfl, rfl⟩⟩
      · exact ⟨.finish, _, _, by simp [next, nextNotifyAll, h]; exact ⟨rfl, rfl⟩⟩
    | _ => exact ⟨.proceed, _, _, rfl⟩
  | _ => exact ⟨.proceed, _, _, rfl⟩

/-! ## The property -/

def OwnSteps (t : Thread) : Condition State Action := fun _ a => a.thread = some t

/-- Alone, a thread comes to the end of its handler: each of its runs is bounded by the remaining
steps, and one that is not yet at the end goes on. From the step on that starts the handler the
bound is linear in the number of registered clients. -/
structure Ends (g : Gateway) (t : Thread) (s : State) : Prop where

  bounded : ∀ as s', (gateway g).Path (OwnSteps t) s as s' →
    as.length + s'.stepsLeft t ≤ s.stepsLeft t

  proceeds : ∀ as s', (gateway g).Path (OwnSteps t) s as s' → s'.frame t ≠ .idle →
    ∃ choice s'', Step g s' (.run t choice) s''

  linear : ∀ a s₀, Step g s₀ a s → s₀.frame t = .idle →
    ∀ as s', (gateway g).Path (OwnSteps t) s as s' → as.length ≤ 6 * s.getActiveConnectionsNo + 19

theorem stepsLeft_step (h : Step g s (.run t choice) s') : s'.stepsLeft t < s.stepsLeft t := by
  cases h with
  | run hn =>
    simp only [State.stepsLeft, State.setFrame_frame_self, State.setFrame_connectionDescriptors]
    exact next_stepsLeft hn

theorem stepsLeft_path (h : (gateway g).Path (OwnSteps t) s as s') :
    as.length + s'.stepsLeft t ≤ s.stepsLeft t := by
  induction h with
  | nil => simp
  | @snoc as a u v _ ha hs ih =>
    obtain ⟨choice, rfl⟩ := Action.thread_eq_some.mp ha
    have := stepsLeft_step (gateway_step.mp hs)
    simp only [List.length_append, List.length_singleton]
    omega

theorem Frame.Begins.stepsLeft_le {x : ChannelId} (h : f.Begins x) :
    f.stepsLeft m ≤ 6 * m.keys.card + 19 := by
  cases h <;> simp only [Frame.stepsLeft, ConnectLine.stepsLeft] <;> omega

theorem Frame.Loses.stepsLeft_le {x : ChannelId} (h : f.Loses x) :
    f.stepsLeft m ≤ 6 * m.keys.card + 19 := by
  cases h <;> simp only [Frame.stepsLeft] <;> omega

theorem Call.stepsLeft_le (c : Call) : c.frame.stepsLeft m ≤ 6 * m.keys.card + 19 := by
  cases c <;> simp only [Call.frame, Frame.stepsLeft, PushLine.stepsLeft] <;> omega

/-- A thread that was idle before a step has at most just started a handler with it. -/
theorem stepsLeft_start {a : Action} (h : Step g s a s') (hf : s.frame t = .idle) :
    s'.stepsLeft t ≤ 6 * s'.getActiveConnectionsNo + 19 := by
  have idle : ∀ {u : State}, u.frame t = .idle →
      u.stepsLeft t ≤ 6 * u.getActiveConnectionsNo + 19 := fun hu => by
    rw [State.stepsLeft, hu]
    exact Nat.zero_le _
  have set : ∀ {u : State} {t' : Thread} {f' : Frame}, u.frame t = .idle →
      f'.stepsLeft u.connectionDescriptors ≤ 6 * u.connectionDescriptors.keys.card + 19 →
      (u.setFrame t' f').stepsLeft t ≤ 6 * (u.setFrame t' f').getActiveConnectionsNo + 19 := by
    intro u t' f' hu hf'
    by_cases ht : t = t'
    · subst ht
      rw [State.stepsLeft, State.setFrame_frame_self]
      exact hf'
    · exact idle ((State.setFrame_frame_of_ne u f' ht).trans hu)
  cases h with
  | read _ _ => exact set hf (channelRead_begins ..).stepsLeft_le
  | inactive _ _ | readerIdle _ _ _ => exact set hf (channelInactive_loses ..).stepsLeft_le
  | @exceptionCaught x _ => exact set hf (Frame.Begins.close (x := x)).stepsLeft_le
  | peerClose _ | task _ _ => exact idle hf
  | @call n c _ => exact set hf c.stepsLeft_le
  | @run t' choice i f' hn =>
    have ht : t ≠ t' := by
      rintro rfl
      rw [hf] at hn
      cases hn
    exact idle ((State.setFrame_frame_of_ne _ f' ht).trans (by rw [State.exec_frame, hf]))

/-- Every handler ends, wherever the other threads stand. -/
theorem handlers_end_alone (g : Gateway) (t : Thread) (s : State) : Ends g t s where
  bounded _ _ h := stepsLeft_path h
  proceeds _ s' _ hf := by
    obtain ⟨choice, i, f', hn⟩ := exists_next g s' t hf
    exact ⟨choice, _, .run hn⟩
  linear _ _ h hf as s' hp :=
    (Nat.le_add_right _ _).trans ((stepsLeft_path hp).trans (stepsLeft_start h hf))

end ImProxy
