import ImProxy.Invariant.Startup

/-! # Stopping a running server

A `startServer` call that has bound its listener waits for its close inside the monitor
that `stopServer` needs, and only `stopServer` shuts down the groups that close it.
A run is free of that deadlock exactly if nobody tries to stop a running server.
-/

set_option autoImplicit false

namespace ImProxy

open Concurrent Transition

namespace GateWayServer

variable {c : Config} {s s' : State} {v v' : Server} {a : Action} {as : List Action} {t l k : ℕ}
  {e : Event}

/-- A thread waits inside `startServer` for the close of a listener that is bound. -/
def State.Waits (s : State) (t l : ℕ) : Prop :=
  s.line t = .start (.closeFuture (some l)) ∧ s.server.listener? l = some .bound

/-- A `stopServer` call stands in front of the monitor. -/
def State.Blocked (s : State) : Prop := ∃ u, s.line u = .stopServer

/-- The server is started, a thread inside `startServer` holds the monitor while it waits for
the close of the listener, a `stopServer` call is blocked on the monitor, and no step closes the
listener. -/
def Stuck (c : Config) (s : State) : Prop :=
  s.server.initialized = true ∧ ∃ t l, s.monitor = some t ∧
    s.line t = .start (.closeFuture (some l)) ∧ s.server.isClosed l = false ∧ s.Blocked ∧
    ∀ a s', (system c).step a s = some s' → s'.server.isClosed l = false

/-- Nobody tries to stop a running server: no `stopServer` call is made while a `startServer`
call waits for its bound listener, and none stands in front of the monitor when a `startServer`
call comes to that wait, or when a bind that is still under way then succeeds. -/
def NobodyStops : Condition State Action := fun s a =>
  match a with
  | .stopServer _ => ∀ t l, ¬s.Waits t l
  | .run t _ => ∀ l, s.line t = .start (.assignInitialized (some l)) →
    s.server.listener? l = some .bound → ¬s.Blocked
  | .netty (.complete l true) => ∀ t, s.line t = .start (.closeFuture (some l)) → ¬s.Blocked
  | _ => True

/-! ## Listeners -/

theorem Server.netty_bound (h : v.netty e = some v') (hb : v'.listener? l = some .bound) :
    v.listener? l = some .bound ∨ e = .complete l true := by
  cases netty_step h with
  | @complete k success hk =>
    rw [listener?_setListener] at hb
    split_ifs at hb with hl hs
    · exact .inr (by rw [hl, hs])
    · simp [hl, hk] at hb
    · exact .inl hb
  | closeBinding _ hk | closeBound _ hk =>
    rw [listener?_setListener] at hb
    split_ifs at hb with hl
    · simp [hl, hk] at hb
    · exact .inl hb
  | terminate _ _ => exact .inl hb

theorem Server.netty_stays (h : v.netty e = some v') (hb : v.listener? l = some .bound)
    (hg : v.group? (v.owner l) = some .running) : v'.listener? l = some .bound := by
  cases netty_step h with
  | complete hk =>
    rw [listener?_setListener, if_neg]
    · exact hb
    · rintro rfl
      simp [hk] at hb
  | closeBinding hk _ | closeBound hk _ =>
    rw [listener?_setListener, if_neg]
    · exact hb
    · rintro rfl
      simp [hk] at hg
  | terminate _ _ => exact hb

/-! ## The wait -/

theorem owner_of_closeFuture (hr : (system c).Reachable s)
    (ht : s.line t = .start (.closeFuture (some l))) :
    s.server.group? (s.server.owner l) = some .running := by
  have hi := State.inside_of_start ht
  obtain ⟨hf, -⟩ := fresh_invariant.inside hr hi
  rw [ht] at hf
  rw [hf.2 l hf.1.symm]
  exact running_invariant.inside hr hi (by rw [ht]; rfl)

/-- While a thread waits, nobody enters the monitor and nothing closes the listener; only an
interrupt ends the wait. -/
theorem State.Waits.step (h : s.Waits t l) (hr : (system c).Reachable s) (hs : Step c s a s') :
    s'.server.listener? l = some .bound ∧ (a = .run t true ∨ s'.Waits t l) := by
  obtain ⟨ht, hb⟩ := h
  have hi := State.inside_of_start ht
  have hg := reachable_guarded hr
  have stays : ∀ {u f}, (s.line u).inside = false → (s.setLine u f).line t = s.line t := by
    intro u f hu
    refine State.setLine_of_ne ?_
    rintro rfl
    simp [hu] at hi
  have same : ∀ {u}, (s.line u).inside = true → u = t := fun hu => Monitor.Guards.unique hg hu hi
  cases hs with
  | startServer hu | stopServer hu =>
    exact ⟨hb, .inr ⟨(stays (by rw [hu]; rfl)).trans ht, hb⟩⟩
  | enterStart _ hm | enterStop _ hm =>
    rw [Monitor.Guards.holder hg hi] at hm
    cases hm
  | start hu hn =>
    obtain rfl := same (State.inside_of_start hu)
    cases hu.symm.trans ht
    cases hn with
    | closed hc => simp [Server.isClosed, hb, ListenerState.isOpen] at hc
    | interrupted _ hint => exact ⟨hb, .inl (by rw [hint])⟩
  | stop hu _ =>
    obtain rfl := same (State.inside_of_stop hu)
    cases hu.symm.trans ht
  | exit hu =>
    obtain rfl := same (Line.inside_of_isOver hu)
    rw [ht] at hu
    cases hu
  | netty hv =>
    have hb' := Server.netty_stays hv hb (owner_of_closeFuture hr ht)
    exact ⟨hb', .inr ⟨ht, hb'⟩⟩

theorem State.Blocked.step (h : s.Blocked) (hg : Guarded s) (hi : (s.line t).inside = true)
    (hs : Step c s a s') : s'.Blocked := by
  obtain ⟨u, hu⟩ := h
  have hm : s.monitor ≠ none := by
    rw [Monitor.Guards.holder hg hi]
    nofun
  have stays : ∀ {w f}, s.line w ≠ .stopServer → (s.setLine w f).line u = .stopServer := by
    intro w f hw
    refine (State.setLine_of_ne ?_).trans hu
    rintro rfl
    exact hw hu
  refine ⟨u, ?_⟩
  cases hs with
  | startServer hw | stopServer hw => exact stays (by simp [hw])
  | enterStart _ hn | enterStop _ hn => exact absurd hn hm
  | start hw _ | stop hw _ => exact stays (by simp [hw])
  | exit hw => exact stays fun he => by simp [he, Line.isOver] at hw
  | netty _ => exact hu

theorem stuck_iff (hr : (system c).Reachable s) :
    Stuck c s ↔ (∃ t l, s.Waits t l) ∧ s.Blocked := by
  constructor
  · rintro ⟨-, t, l, -, ht, hc, hu, hstep⟩
    refine ⟨⟨t, l, ht, ?_⟩, hu⟩
    have howner := owner_of_closeFuture hr ht
    cases hl : s.server.listener? l with
    | none =>
      have hn : s.server.listeners[l]? = none := by simpa [Server.listener?] using hl
      simp [Server.owner, hn, Server.group?] at howner
    | some st =>
      cases st with
      | bound => rfl
      | binding =>
        -- the bind may still fail, which closes the listener
        have hs := hstep (.netty (.complete l false)) _
          (by simp only [system, State.step, Server.netty, Server.complete, hl]; rfl)
        simp [Server.isClosed, Server.listener?_setListener, hl, ListenerState.isOpen] at hs
      | failed | closed => simp [Server.isClosed, hl, ListenerState.isOpen] at hc
  · rintro ⟨⟨t, l, ht, hb⟩, hu⟩
    have hi := State.inside_of_start ht
    refine ⟨flag_of_reachable hr hi (by rw [ht]; rfl), t, l,
      Monitor.Guards.holder (reachable_guarded hr) hi, ht, ?_, hu, fun a s' hs => ?_⟩
    · simp [Server.isClosed, hb, ListenerState.isOpen]
    · have hb' := (State.Waits.step ⟨ht, hb⟩ hr (system_step hs)).1
      simp [Server.isClosed, hb', ListenerState.isOpen]

/-! ## Runs -/

theorem State.Waits.of_assignInitialized {interrupted : Bool}
    (h : Step c s (.run t interrupted) s') (ht : s.line t = .start (.assignInitialized (some l)))
    (hb : s.server.listener? l = some .bound) : s'.Waits t l := by
  cases h with
  | start ht' hn =>
    cases ht'.symm.trans ht
    cases hn
    exact ⟨State.setLine_self, hb⟩
  | enterStart ht' _ | enterStop ht' _ | stop ht' _ => cases ht'.symm.trans ht
  | exit ho => rw [ht] at ho; cases ho

theorem State.Waits.of_complete (h : Step c s (.netty (.complete l true)) s')
    (ht : s.line t = .start (.closeFuture (some l))) : s'.Waits t l := by
  cases h with
  | netty hv =>
    cases netty_step hv with
    | complete hb => exact ⟨ht, by simp [Server.listener?_setListener, hb]⟩

/-- How a wait for a bound listener comes about. -/
theorem waits_of_step (hg : Guarded s) (h : Step c s a s') (hw : s'.Waits t l) :
    s.Waits t l ∨
      (∃ interrupted, a = .run t interrupted ∧ s.line t = .start (.assignInitialized (some l)) ∧
        s.server.listener? l = some .bound) ∨
      a = .netty (.complete l true) ∧ s.line t = .start (.closeFuture (some l)) := by
  obtain ⟨ht, hb⟩ := hw
  -- nobody else is inside the monitor with the thread that waits
  have alone : ∀ {u}, s.line t = .start (.closeFuture (some l)) → (s.line u).inside = true →
      t = u := fun h hu => Monitor.Guards.unique hg (State.inside_of_start h) hu
  cases h with
  | startServer _ | stopServer _ => exact .inl ⟨(State.line_of_setLine_ne ht nofun).2, hb⟩
  | enterStart _ _ | enterStop _ _ => exact .inl ⟨(State.line_of_setLine_ne ht nofun).2, hb⟩
  | exit _ => exact .inl ⟨(State.line_of_setLine_ne ht nofun).2, hb⟩
  | @start u interrupted f f' v hu hn =>
    rcases State.line_of_setLine ht with ⟨rfl, hf⟩ | ⟨hne, hl⟩
    · cases hf
      generalize hl' : StartLine.closeFuture (some l) = l' at hn
      cases hn with
      | assignInitialized =>
        cases hl'
        exact .inr (.inl ⟨interrupted, rfl, hu, hb⟩)
      | @disabled p _ | @synced p _ => cases p <;> cases hl'
      | _ => cases hl'
    · exact absurd (alone hl (State.inside_of_start hu)) hne
  | @stop u interrupted f f' v hu hn =>
    obtain ⟨hne, hl⟩ := State.line_of_setLine_ne ht nofun
    exact absurd (alone hl (State.inside_of_stop hu)) hne
  | netty hv =>
    rcases Server.netty_bound hv hb with hb | rfl
    · exact .inl ⟨ht, hb⟩
    · exact .inr (.inr ⟨rfl, ht⟩)

theorem blocked_of_step (h : Step c s a s') (hb : s'.Blocked) :
    s.Blocked ∨ ∃ u, a = .stopServer u := by
  obtain ⟨u, hu⟩ := hb
  cases h with
  | stopServer _ => exact .inr ⟨_, rfl⟩
  | startServer _ => exact .inl ⟨u, (State.line_of_setLine_ne hu nofun).2⟩
  | enterStart _ _ | enterStop _ _ | start _ _ | stop _ _ | exit _ =>
    exact .inl ⟨u, (State.line_of_setLine_ne hu nofun).2⟩
  | netty _ => exact .inl ⟨u, hu⟩

/-- A step leads into the deadlock exactly if somebody tries to stop the running server. -/
theorem stuck_step (hr : (system c).Reachable s) (hn : ¬Stuck c s)
    (hs : (system c).step a s = some s') : ¬Stuck c s' ↔ NobodyStops s a := by
  have hstep := system_step hs
  rw [stuck_iff hr] at hn
  rw [stuck_iff (hr.step hs)]
  constructor
  · intro hn'
    match a with
    | .startServer _ | .netty (.complete _ false) | .netty (.close _) | .netty (.terminate _) =>
      trivial
    | .stopServer u =>
      intro t l hw
      obtain ⟨-, hw' | hw'⟩ := hw.step hr hstep
      · cases hw'
      · refine hn' ⟨⟨t, l, hw'⟩, u, ?_⟩
        cases hstep
        exact State.setLine_self
    | .run t interrupted =>
      intro l ht hb hu
      exact hn' ⟨⟨t, l, .of_assignInitialized hstep ht hb⟩,
        hu.step (reachable_guarded hr) (State.inside_of_start ht) hstep⟩
    | .netty (.complete l true) =>
      intro t ht hu
      exact hn' ⟨⟨t, l, .of_complete hstep ht⟩,
        hu.step (reachable_guarded hr) (State.inside_of_start ht) hstep⟩
  · rintro hc ⟨⟨t, l, hw⟩, hb⟩
    rcases waits_of_step (reachable_guarded hr) hstep hw with
      hw | ⟨interrupted, rfl, ht, hl⟩ | ⟨rfl, ht⟩
    · rcases blocked_of_step hstep hb with hb | ⟨u, rfl⟩
      · exact hn ⟨⟨t, l, hw⟩, hb⟩
      · exact hc t l hw
    · rcases blocked_of_step hstep hb with hb | ⟨u, ha⟩
      · exact hc l ht hl hb
      · cases ha
    · rcases blocked_of_step hstep hb with hb | ⟨u, ha⟩
      · exact hc t ht hb
      · cases ha

/-- Only an interrupt of the wait leads out of the deadlock. -/
theorem Stuck.step (h : Stuck c s) (hr : (system c).Reachable s)
    (hs : (system c).step a s = some s') : Stuck c s' ∨ ∃ t, a = .run t true := by
  obtain ⟨⟨t, l, hw⟩, hb⟩ := (stuck_iff hr).mp h
  obtain ⟨-, ha | hw'⟩ := hw.step hr (system_step hs)
  · exact .inr ⟨t, ha⟩
  · have hi := State.inside_of_start hw.1
    exact .inl ((stuck_iff (hr.step hs)).mpr
      ⟨⟨t, l, hw'⟩, hb.step (reachable_guarded hr) hi (system_step hs)⟩)

theorem nobodyStops_of_not_mem (h : (system c).Path System.always .init as s)
    (ha : ∀ u, .stopServer u ∉ as) :
    (system c).Path NobodyStops .init as s ∧ ¬s.Blocked := by
  induction h with
  | nil =>
    refine ⟨.nil, ?_⟩
    rintro ⟨u, hu⟩
    cases hu
  | @snoc as a t u ht _ hu ih =>
    obtain ⟨hp, hb⟩ := ih fun v hv => ha v (List.mem_append_left _ hv)
    have hstop : ∀ v, a ≠ .stopServer v := by
      rintro v rfl
      exact ha v (by simp)
    refine ⟨.snoc hp ?_ hu, fun hb' => ?_⟩
    · unfold NobodyStops
      split
      · exact absurd rfl (hstop _)
      · exact fun _ _ _ => hb
      · exact fun _ _ => hb
      · trivial
    · rcases blocked_of_step (system_step hu) hb' with hb' | ⟨v, hv⟩
      · exact hb hb'
      · exact hstop v hv

/-- A run never gets stuck exactly if nobody tries to stop a running server. -/
theorem stoppable_iff (h : (system c).Path System.always .init as s) :
    (∀ bs t, bs <+: as → (system c).Path System.always .init bs t → ¬Stuck c t) ↔
      (system c).Path NobodyStops .init as s := by
  refine h.everywhere_iff ?_ fun a s t hr hn hs => stuck_step hr.reachable hn hs
  rintro ⟨hi, -⟩
  cases hi

def startTwice : List Action := firstStart 0 true ++ [.startServer 1]

theorem stoppable_startTwice :
    (system configProperties).Path System.always .init startTwice (after startTwice) ∧
    ∀ bs t, bs <+: startTwice →
      (system configProperties).Path System.always .init bs t → ¬Stuck configProperties t := by
  have h : (system configProperties).Path System.always .init startTwice (after startTwice) :=
    path_after (by decide)
  have ha : ∀ u, .stopServer u ∉ startTwice := by
    simp [startTwice, firstStart, proceed]
  exact ⟨h, (stoppable_iff h).mpr (nobodyStops_of_not_mem h ha).1⟩

def startAndStop : List Action := firstStart 0 true ++ [.stopServer 1]

theorem stuck_startAndStop : ∃ s, (system configProperties).Reachable s ∧
    Stuck configProperties s := by
  have hr : (system configProperties).Reachable (after startAndStop) :=
    (path_after (by decide)).reachable
  refine ⟨_, hr, (stuck_iff hr).mpr ⟨⟨0, 1, ?_, ?_⟩, 1, ?_⟩⟩
  · decide
  · decide
  · decide

end GateWayServer

end ImProxy
