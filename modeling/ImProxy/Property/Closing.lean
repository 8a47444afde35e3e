import ImProxy.Gateway.Scenario
import ImProxy.Invariant.History

/-! # Who closes whose connection

An event loop closes another channel in two places. A CONNECT that passed the
checks aborts the connection it found under its client id. A DISCONNECT that finds
another channel's descriptor under the client id of its own channel aborts that
channel, although after a takeover the other channel is the newer connection. On
runs without the second every close of another channel is an eviction.
-/

set_option autoImplicit false

namespace ImProxy

open Concurrent Transition

variable {g : Gateway} {s t u : State} {choice : Choice} {f f' : Frame} {i : Instr}
  {x y : ChannelId} {a : Action} {as : List Action} {d p : Descriptor}
  {msg : MqttConnectMessage} {l : ConnectLine} {C : Condition State Action}

/-- Earlier in the run, while the channel was handling the same message, `addConnection` has
found a descriptor under the client id of a CONNECT. -/
def Found (g : Gateway) (as : List Action) (s : State) (x : ChannelId)
    (msg : MqttConnectMessage) (d p : Descriptor) : Prop :=
  ∃ bs choice cs u, as = bs ++ .run (.loop x) choice :: cs ∧
    (gateway g).run bs (.init g) = some u ∧ u.frame (.loop x) = .connect msg d .get ∧
    u.connectionDescriptors.get msg.clientId = some p ∧
    (u.channel x).received = (s.channel x).received

/-- The close of channel `y` that event loop `x` is about to issue evicts the connection that a
CONNECT has found under its client id. -/
def Evicts (g : Gateway) (as : List Action) (s : State) (x y : ChannelId) : Prop :=
  ∃ msg d p, s.frame (.loop x) = .connect msg d (.evictAbort p) ∧ p.channel = y ∧
    (s.channel x).received.getLast? = some (.connect msg) ∧ Passes g msg ∧
    Found g as s x msg d p

/-- Every close of another channel that an event loop may issue is an eviction. -/
def ClosesByEviction (g : Gateway) (as : List Action) (s : State) : Prop :=
  ∀ x y choice i f, next g s (.loop x) choice (s.frame (.loop x)) = some (i, f) →
    i = .close y ∨ i = .closeLost y → y ≠ x → Evicts g as s x y

/-- The channel and the client id for which a step of `processDisconnect` looks up the
registry. -/
def State.disconnects (s : State) (a : Action) : Option (ChannelId × String) :=
  match s.executes a with
  | .disconnect x (.get c) => some (x, c)
  | _ => none

/-- A DISCONNECT finds no other channel's descriptor under the client id of its channel. -/
def DisconnectsOwn : Condition State Action := fun s a =>
  ∀ r ∈ s.disconnects a, ∀ d ∈ s.connectionDescriptors.get r.2, d.channel = r.1

instance (s : State) : DecidablePred (DisconnectsOwn s) := fun a =>
  inferInstanceAs (Decidable (∀ r ∈ s.disconnects a, _))

/-! ## Disconnects -/

theorem Frame.Begins.ne_abortOther (h : f.Begins x) : f ≠ .disconnect y (.abortOther d) := by
  cases h <;> simp

theorem Frame.Loses.ne_abortOther (h : f.Loses x) : f ≠ .disconnect y (.abortOther d) := by
  cases h <;> simp

/-- On these runs no DISCONNECT gets to abort another channel. -/
theorem no_abortOther (h : (gateway g).ReachableWhere DisconnectsOwn s) (x y : ChannelId)
    (d : Descriptor) : s.frame (.loop x) ≠ .disconnect y (.abortOther d) := by
  have hP : LocalInvariant g DisconnectsOwn x fun _ f => ∀ y d, f ≠ .disconnect y (.abortOther d) :=
    { tasks := fun _ h => h
      init := by simp
      read := fun _ _ _ _ _ _ _ => (channelRead_begins ..).ne_abortOther
      lose := fun _ _ _ => (channelInactive_loses ..).ne_abortOther
      readerIdle := fun _ _ _ _ => (channelInactive_loses ..).ne_abortOther
      exceptionCaught := by simp
      peerClose := by simp
      task := by simp
      run := fun {s choice i f} _ hc hf hn h y d he => by
        subst he
        simp only [DisconnectsOwn, State.disconnects, State.executes] at hc
        generalize s.frame (.loop x) = f₀ at hc hf hn
        cases next_statement hn with
        | disconnectOther hd hne => exact hne (hc _ rfl d hd) }
  exact hP.reachable h y d

/-! ## Evictions -/

def ConnectLine.found : ConnectLine → Option Descriptor
  | .put previous => previous
  | .evictWrite p => some p
  | .evictAbort p => some p
  | _ => none

theorem Found.snoc (h : Found g as s x msg d p) (a : Action)
    (hr : (t.channel x).received = (s.channel x).received) : Found g (as ++ [a]) t x msg d p := by
  obtain ⟨bs, choice, cs, u, rfl, hu, hf, hp, hrec⟩ := h
  exact ⟨bs, choice, cs ++ [a], u, by simp, hu, hf, hp, hrec.trans hr.symm⟩

theorem found_run (hrun : (gateway g).run as (.init g) = some s)
    (hs : ∀ msg d l p, s.frame (.loop x) = .connect msg d l → l.found = some p →
      Found g as s x msg d p)
    (ho : (s.frame (.loop x)).Of (.loop x))
    (hn : next g s (.loop x) choice (s.frame (.loop x)) = some (i, .connect msg d l))
    (hl : l.found = some p)
    (hr : (t.channel x).received = (s.channel x).received) :
    Found g (as ++ [.run (.loop x) choice]) t x msg d p := by
  generalize hf : s.frame (.loop x) = f₀ at hn ho
  cases next_statement hn with
  | get =>
    refine ⟨as, choice, [], s, rfl, hrun, hf, ?_, hr.symm⟩
    rw [← ho.2]
    exact hl
  | putOver => exact (hs _ _ _ _ hf hl).snoc _ hr
  | evictWrite => exact (hs _ _ _ _ hf hl).snoc _ hr
  | _ => cases hl

theorem found_history (h : (gateway g).Path System.always (.init g) as s) :
    ∀ msg d l p, s.frame (.loop x) = .connect msg d l → l.found = some p →
      Found g as s x msg d p := by
  refine h.history (P := fun as s => ∀ msg d l p, s.frame (.loop x) = .connect msg d l →
    l.found = some p → Found g as s x msg d p) ?_ ?_
  · intro msg d l p hf
    cases hf
  intro as a s t hp ih _ hstep msg d l p hf hl
  have ho := reachable_owned ⟨as, hp⟩
  have hx := (gateway_step.mp hstep).onLoop (reachable_neverNotified ⟨as, hp⟩) ho x
  generalize ht : t.channel x = c, t.frame (.loop x) = f at hx hf
  cases hx with
  | foreign _ => exact (ih msg d l p hf hl).snoc _ (by rw [ht])
  | @read q _ _ =>
    have hb := channelRead_begins g x (s.channel x) q
    rw [hf] at hb
    cases hb
    cases hl
  | inactive _ | readerIdle _ _ =>
    simpa [hf, Frame.isConnect] using (channelInactive_loses x (s.channel x)).quiet.1
  | exceptionCaught _ | peerClose _ | task _ _ => cases hf
  | run hn =>
    subst hf
    exact found_run (System.path_iff_run.mp hp) ih (ho _) hn hl (by simp [ht])

/-- On runs whose DISCONNECTs find no other channel's descriptor, event loops close other
channels only to evict the connection that a CONNECT has found under its client id. -/
theorem closes_by_eviction (h : (gateway g).Path DisconnectsOwn (.init g) as s) :
    ClosesByEviction g as s := by
  intro x y choice i f hn hi hy
  have hr : (gateway g).Reachable s := h.reachable
  have ho := reachable_owned hr (.loop x)
  have hd := no_abortOther ⟨as, h⟩ x
  rcases hi with rfl | rfl
  swap
  · -- the close after a loss is the own channel's
    have hown := (next_of ho hn).1
    rw [Instr.closeLost_of, Thread.loop.injEq] at hown
    exact absurd hown.symm hy
  have hl := reachable_lifecycle hr x
  have hh := reachable_handles hr x
  generalize hf : s.frame (.loop x) = f₀ at hn ho hd hl hh
  cases next_statement hn with
  | evictAbort =>
    obtain ⟨hlast, -⟩ := hl.connecting _ _ _ rfl
    exact ⟨_, _, _, hf, rfl, hh, hl.passed _ (List.mem_of_getLast? hlast),
      found_history h.forget _ _ _ _ hf rfl⟩
  | abortOther => exact absurd rfl (hd _ _)
  | close => exact absurd ho hy
  | rollbackClose => exact absurd ho.1 hy
  | abort => exact absurd ho.2 hy
  | notifyAbort | messageAbort | closeAbort | closeClose => exact ho.elim

def eviction : List Action :=
  join 0 "a" ++ .read 1 (.connect (connectAs "a")) :: proceed 1 3

theorem closes_by_eviction_takeOver : Evicts ascii eviction (after eviction) 1 0 := by
  obtain ⟨s, hs⟩ := Option.isSome_iff_exists.mp
    (show ((gateway ascii).runWhere DisconnectsOwn eviction (.init ascii)).isSome = true by decide)
  have he : after eviction = s := by rw [after, System.run_of_runWhere hs]; rfl
  have hp := he ▸ System.path_of_runWhere hs
  exact closes_by_eviction hp 1 0 .proceed (.close 0)
    (.connect (connectAs "a") ⟨"a", 1, true, 0⟩ .keepAlive) rfl (.inl rfl) (by decide)

/-- Channel 0 sends a DISCONNECT after channel 1 has taken its client id over, before it runs
the close that the takeover has posted to it. -/
def staleDisconnect : List Action :=
  join 0 "a" ++ takeOver 1 "a" ++ .read 0 .disconnect :: proceed 0 1

theorem stale_disconnect_closes_newer : ∃ s,
    (gateway ascii).run staleDisconnect (.init ascii) = some s ∧
      ¬ClosesByEviction ascii staleDisconnect s := by
  refine ⟨after staleDisconnect, run_after (by decide), fun h => ?_⟩
  obtain ⟨msg, d, p, hf, -⟩ := h 0 1 .proceed (.close 1) .idle rfl (.inl rfl) (by decide)
  have hc : ((after staleDisconnect).frame (.loop 0)).isConnect = true := by rw [hf]; rfl
  exact absurd hc (by decide)

end ImProxy
