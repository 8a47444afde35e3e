import ImProxy.Invariant.Startup

/-! # What a start leaves behind

Between two calls a server that is not initialized must own nothing. A start creates its
groups and listeners first and gives none of them back when a bind fails, and a stop
returns when its waits are over, whether the groups have terminated or not. And a start
sets the flag before it looks for the listener to wait for.
-/

set_option autoImplicit false

namespace ImProxy

open Concurrent Transition

namespace GateWayServer

variable {c : Config} {s s' : State} {v v' : Server} {a : Action} {as : List Action} {t k : ℕ}
  {l : Line} {e : Event} {g : Option ℕ}

/-- No call is under way: nobody is inside the monitor, or the method has come to its end. -/
def State.betweenCalls (s : State) : Bool := !s.current.inside || s.current.isOver

/-- No listener is bound and no event loop group is running. -/
def Server.NothingLeft (v : Server) : Prop :=
  (∀ e ∈ v.listeners, e.state ≠ .bound) ∧ ∀ st ∈ v.groups, st = .terminated

/-- Between calls, a server that is not initialized owns nothing. -/
def OwnsNothing (s : State) : Prop :=
  s.betweenCalls = true → s.server.initialized = false → s.server.NothingLeft

/-- When `startServer` ends by an exception the server is not initialized. -/
def ThrowsUninitialized (s : State) : Prop :=
  ∀ t e, s.line t = .start (.thrown e) → s.server.initialized = false

def Server.isDown (v : Server) (g : Option ℕ) : Bool := (v.group? g).all fun st => st = .terminated

/-- The bind that `startServer` waits for has not failed, and the groups that `stopServer` waits
for have terminated by the end of its waits. -/
def Server.succeeds (v : Server) : Line → Bool
  | .start (.sync _) => v.channelFuture.bind v.listener? ≠ some .failed
  | .stop .assignInitialized => v.isDown v.bossGroup && v.isDown v.workerGroup
  | _ => true

def Succeeds : Condition State Action := fun s a =>
  match a with
  | .run t _ => s.server.succeeds (s.line t) = true
  | _ => True

instance (s : State) : DecidablePred (Succeeds s) := fun a =>
  match a with
  | .run t _ => inferInstanceAs (Decidable (s.server.succeeds (s.line t) = true))
  | .startServer _ => isTrue trivial
  | .stopServer _ => isTrue trivial
  | .netty _ => isTrue trivial

def Server.waits (v : Server) (interrupted : Bool) : Line → Bool
  | .start (.closeFuture none) => false
  | .start (.closeFuture (some k)) => !interrupted || v.isClosed k
  | _ => true

def Waits : Condition State Action := fun s a =>
  match a with
  | .run t interrupted => s.server.waits interrupted (s.line t) = true
  | _ => True

instance (s : State) : DecidablePred (Waits s) := fun a =>
  match a with
  | .run t interrupted => inferInstanceAs (Decidable (s.server.waits interrupted (s.line t) = true))
  | .startServer _ => isTrue trivial
  | .stopServer _ => isTrue trivial
  | .netty _ => isTrue trivial

theorem Server.succeeds_of_isOver (v : Server) (h : l.isOver = true) : v.succeeds l = true := by
  unfold Line.isOver at h
  split at h <;> first | rfl | cases h

theorem Server.waits_of_isOver (v : Server) {interrupted : Bool} (h : l.isOver = true) :
    v.waits interrupted l = true := by
  unfold Line.isOver at h
  split at h <;> first | rfl | cases h

/-! ## Listeners -/

namespace Server

/-- An open listener belongs to a boss group that has not terminated. -/
def Hosted (v : Server) : Prop := ∀ e ∈ v.listeners, e.state.isOpen = true →
  ∃ st, v.group? e.bossGroup = some st ∧ st ≠ .terminated

theorem mem_setListener {e : Listener} {st : ListenerState}
    (h : e ∈ (v.setListener k st).listeners) : e ∈ v.listeners ∨ e.state = st ∧
      ∃ e₀, v.listeners[k]? = some e₀ ∧ e₀.bossGroup = e.bossGroup := by
  obtain ⟨n, hn⟩ := List.mem_iff_getElem?.mp h
  rw [setListener, List.getElem?_modify] at hn
  obtain ⟨e₀, he, rfl⟩ := Option.map_eq_some_iff.mp hn
  split_ifs with hk
  · exact .inr ⟨rfl, e₀, hk ▸ he, rfl⟩
  · exact .inl (List.mem_of_getElem? he)

theorem Hosted.shutdown (h : v.Hosted) (g : Option ℕ) : (v.shutdownGracefully g).Hosted := by
  cases g with
  | none => exact h
  | some n =>
    intro e he ho
    obtain ⟨st, hst, hne⟩ := h e he ho
    rw [shutdownGracefully, group?_setGroup, hst]
    split_ifs
    · exact ⟨st.shutdown, rfl, by cases st <;> simp_all [GroupState.shutdown]⟩
    · exact ⟨st, rfl, hne⟩

theorem Hosted.netty (h : v.Hosted) (hv : v.netty e = some v') : v'.Hosted := by
  intro d hd ho
  cases netty_step hv with
  | complete hn =>
    rcases mem_setListener hd with hd | ⟨-, e₀, he, hb⟩
    · exact h d hd ho
    · rw [group?_setListener, ← hb]
      refine h e₀ (List.mem_of_getElem? he) ?_
      have hst : e₀.state = .binding := by simpa [listener?, he] using hn
      rw [hst]
      rfl
  | closeBinding _ _ | closeBound _ _ =>
    rcases mem_setListener hd with hd | ⟨hst, -⟩
    · exact h d hd ho
    · simp [hst, ListenerState.isOpen] at ho
  | terminate _ hclosed =>
    rw [group?_setGroup, if_neg]
    · exact h d hd ho
    · intro hb
      simp [hclosed d hd hb] at ho

end Server

theorem hosted_invariant : SerialInvariant c System.always fun v _ => v.Hosted where
  init := by simp [Server.Hosted, Server.init]
  enterStart h := h
  enterStop h := h
  start {s t _ l v l'} hr _ ht h hs := by
    have new : ∀ d ∈ s.server.listeners, d.state.isOpen = true →
        ∃ st, s.server.newGroup.group? d.bossGroup = some st ∧ st ≠ .terminated := by
      intro d hd ho
      obtain ⟨st, hst, hne⟩ := hs d hd ho
      exact ⟨st, Server.group?_newGroup _ hst, hne⟩
    cases h with
    | newBossGroup | newWorkerGroup => exact new
    | bind _ =>
      intro d hd ho
      rcases List.mem_append.mp hd with hd | hd
      · exact hs d hd ho
      · cases List.mem_singleton.mp hd
        have hi := State.inside_of_start ht
        exact ⟨.running, running_invariant.inside hr hi (by rw [ht]; rfl), nofun⟩
    | _ => exact hs
  stop _ _ _ h hs := by
    cases h with
    | shutdownWorker | shutdownBoss => exact hs.shutdown _
    | forceWorker | forceBoss => rw [Server.forceShutdown_eq]; exact hs.shutdown _
    | _ => exact hs
  exit _ h := h
  netty hv hs := hs.netty hv

/-! ## Groups -/

def Line.starts : Line → Bool
  | .start (.bind _) => true
  | .start (.sync _) => true
  | .start (.assignInitialized _) => true
  | _ => false

def MayRun (v : Server) : Line → ℕ → Prop
  | .start .newWorkerGroup, k => v.bossGroup = some k
  | l, k => (l.starts = true ∨ v.initialized = true) ∧
    (v.bossGroup = some k ∨ v.workerGroup = some k)

/-- All other groups have terminated. -/
def Trailing (v : Server) (l : Line) : Prop :=
  ∀ k st, v.group? (some k) = some st → st = .terminated ∨ MayRun v l k

theorem MayRun.mono (h : MayRun v l k) (hi : v'.initialized = v.initialized)
    (hb : v'.bossGroup = v.bossGroup) (hw : v'.workerGroup = v.workerGroup) : MayRun v' l k := by
  unfold MayRun at h ⊢
  rw [hi, hb, hw]
  exact h

theorem Trailing.shutdown {l l' : StopLine} (h : Trailing v (.stop l)) (g : Option ℕ) :
    Trailing (v.shutdownGracefully g) (.stop l') := by
  cases g with
  | none => exact h
  | some n =>
    intro k st hst
    rw [Server.shutdownGracefully, Server.group?_setGroup] at hst
    split_ifs at hst
    · obtain ⟨st', hst', rfl⟩ := Option.map_eq_some_iff.mp hst
      rcases h k st' hst' with rfl | hk
      · exact .inl rfl
      · exact .inr hk
    · exact h k st hst

/-- When the current groups are down all have terminated. -/
theorem Trailing.terminated {l : StopLine} {st : GroupState} (h : Trailing v (.stop l))
    (hb : v.isDown v.bossGroup = true) (hw : v.isDown v.workerGroup = true)
    (hst : v.group? (some k) = some st) : st = .terminated := by
  rcases h k st hst with h | ⟨-, hk | hk⟩
  · exact h
  · rw [Server.isDown, hk, hst] at hb
    simpa using hb
  · rw [Server.isDown, hk, hst] at hw
    simpa using hw

theorem trailing_invariant : SerialInvariant c Succeeds Trailing where
  init := by simp [Trailing, Server.group?, Server.init]
  enterStart h := h
  enterStop h := h
  start {s t _ l v l'} hr hc ht h hs := by
    have hi := State.inside_of_start ht
    cases h with
    | initialized _ | uninitialized _ | bind _ | noListener | closed _ | interrupted _ _ => exact hs
    | newBossGroup =>
      have hflag := flag_of_reachable hr.reachable hi (by rw [ht]; rfl)
      intro k st hst
      rcases Server.group?_newGroup_cases _ hst with ⟨rfl, -⟩ | hst
      · exact .inr rfl
      · rcases hs k st hst with hst | ⟨hk | hk, -⟩
        · exact .inl hst
        · cases hk
        · simp [hflag] at hk
    | newWorkerGroup =>
      intro k st hst
      rcases Server.group?_newGroup_cases _ hst with ⟨rfl, -⟩ | hst
      · exact .inr ⟨.inl rfl, .inr rfl⟩
      · exact (hs k st hst).imp_right fun hk => ⟨.inl rfl, .inl hk⟩
    | @disabled p _ | @synced p _ => cases p <;> exact hs
    | bindFailed hf =>
      simp only [Succeeds, ht, Server.succeeds, hf] at hc
      simp at hc
    | assignInitialized =>
      intro k st hst
      exact (hs k st hst).imp_right fun hk => ⟨.inr rfl, hk.2⟩
  stop {s t _ l v l'} _ hc ht h hs := by
    cases h with
    | shutdownWorker | shutdownBoss => exact hs.shutdown _
    | forceWorker | forceBoss => rw [Server.forceShutdown_eq]; exact hs.shutdown _
    | assignInitialized =>
      simp only [Succeeds, ht, Server.succeeds, Bool.and_eq_true] at hc
      exact fun k st hst => .inl (hs.terminated hc.1 hc.2 hst)
    | _ => exact hs
  exit {v l} hl hs := by
    intro k st hst
    refine (hs k st hst).imp_right fun hk => ?_
    unfold Line.isOver at hl
    split at hl <;> first | exact hk | cases hl
  netty {v v' l e} hv hs := by
    obtain ⟨hi, hb, hw, -⟩ := Server.netty_eq hv
    intro k st hst
    rcases Server.netty_group? hv hst with hst | rfl
    · exact (hs k st hst).imp_right fun hk => hk.mono hi hb hw
    · exact .inl rfl

/-! ## Runs -/

theorem ownsNothing_of_reachable (h : (system c).ReachableWhere Succeeds s) : OwnsNothing s := by
  intro hb hi
  have ht := trailing_invariant.reachable h
  have hh := hosted_invariant.reachable h.reachable
  have down : ∀ st ∈ s.server.groups, st = .terminated := by
    intro st hst
    obtain ⟨k, hk⟩ := List.mem_iff_getElem?.mp hst
    refine (ht k st hk).resolve_right fun hk => ?_
    unfold State.betweenCalls at hb
    generalize s.current = l at hb hk
    have hstarts : l.starts = false := by
      cases l with
      | start l => cases l <;> first | rfl | cases hb
      | _ => rfl
    unfold MayRun at hk
    split at hk
    · cases hb
    · simp [hstarts, hi] at hk
  refine ⟨fun d hd hbound => ?_, down⟩
  obtain ⟨st, hst, hne⟩ := hh d hd (by rw [hbound]; rfl)
  obtain ⟨k, -, hk⟩ := Option.bind_eq_some_iff.mp hst
  exact hne (down st (List.mem_of_getElem? hk))

theorem betweenCalls_of_isOver (hg : Guarded s) (h : (s.line t).isOver = true) :
    s.betweenCalls = true := by
  have hc : s.current = s.line t := Monitor.Guards.current_eq hg (Line.inside_of_isOver h)
  simp [State.betweenCalls, hc, h]

theorem Server.NothingLeft.group (h : v.NothingLeft) {st : GroupState}
    (hg : v.group? g = some st) : st = .terminated := by
  obtain ⟨k, -, hk⟩ := Option.bind_eq_some_iff.mp hg
  exact h.2 st (List.mem_of_getElem? hk)

theorem Server.NothingLeft.isDown (h : v.NothingLeft) (g : Option ℕ) : v.isDown g = true := by
  cases hg : v.group? g with
  | none => simp [Server.isDown, hg]
  | some st => simp [Server.isDown, hg, h.group hg]

/-- A failed bind that is waited for ends the call with its groups running. -/
theorem ownsNothing_step (hr : (system c).ReachableWhere Succeeds s)
    (hs : (system c).step a s = some s') : OwnsNothing s' ↔ Succeeds s a := by
  refine ⟨fun h => ?_, fun hc => ownsNothing_of_reachable (hr.step hc hs)⟩
  have hr' : (system c).Reachable s' := hr.reachable.step hs
  have hg := reachable_guarded hr'
  cases system_step hs with
  | startServer _ | stopServer _ | netty _ => trivial
  | enterStart ht _ | enterStop ht _ => simp [Succeeds, Server.succeeds, ht]
  | exit ht => exact Server.succeeds_of_isOver s.server ht
  | @start t _ l l' v ht hn =>
    cases hn with
    | bindFailed _ =>
      -- the boss group of the failed start is still running
      have hl := State.setLine_self (s := s) (t := t) (l := .start (.thrown .bindFailed))
      have hi := flag_of_reachable hr' (t := t) (by rw [hl]; rfl) (by rw [hl]; rfl)
      have hb := running_invariant.inside hr' (t := t) (by rw [hl]; rfl) (by rw [hl]; rfl)
      have hover := betweenCalls_of_isOver hg (t := t) (by rw [hl]; rfl)
      cases (h hover hi).group hb
    | synced hf => simpa [Succeeds, Server.succeeds, ht] using hf
    | _ => simp [Succeeds, Server.succeeds, ht]
  | @stop t _ l l' v ht hn =>
    cases hn with
    | assignInitialized =>
      have hl := State.setLine_self (s := s) (t := t) (l := .stop .returned)
      have hover := betweenCalls_of_isOver hg (t := t) (by rw [hl]; rfl)
      have hleft := h hover rfl
      simp only [Succeeds, Server.succeeds, ht, Bool.and_eq_true]
      exact ⟨hleft.isDown s.server.bossGroup, hleft.isDown s.server.workerGroup⟩
    | _ => simp [Succeeds, Server.succeeds, ht]

theorem thrown_of_step {x : Exception} (h : Step c s a s') (hw : Waits s a)
    (hx : s'.line t = .start (.thrown x)) : x = .bindFailed ∨ s.line t = .start (.thrown x) := by
  cases h with
  | startServer _ | stopServer _ | enterStart _ _ | enterStop _ _ | stop _ _ | exit _ =>
    exact .inr (State.line_of_setLine_ne hx nofun).2
  | netty _ => exact .inr hx
  | @start u interrupted l l' v hu hn =>
    rcases State.line_of_setLine hx with ⟨rfl, hl⟩ | ⟨-, hl⟩
    · cases Line.start.inj hl
      simp only [Waits, hu] at hw
      generalize hl' : StartLine.thrown x = l' at hn
      cases hn with
      | bindFailed _ => cases hl'; exact .inl rfl
      | noListener => cases hw
      | interrupted hc hi => simp [Server.waits, hc, hi] at hw
      | @disabled p _ | @synced p _ => cases p <;> cases hl'
      | _ => cases hl'
    · exact .inr hl

theorem throws_step (hr : (system c).Reachable s) (hp : ThrowsUninitialized s)
    (hs : (system c).step a s = some s') : ThrowsUninitialized s' ↔ Waits s a := by
  have hr' : (system c).Reachable s' := hr.step hs
  have flag : ∀ {u b}, s'.line u = .start (.thrown b) → b ≠ .bindFailed →
      s'.server.initialized = true := by
    intro u b hu hb
    refine flag_of_reachable hr' (t := u) (by rw [hu]; rfl) ?_
    rw [hu]
    cases b <;> first | rfl | exact absurd rfl hb
  constructor
  · intro h
    cases system_step hs with
    | startServer _ | stopServer _ | netty _ => trivial
    | enterStart ht _ | enterStop ht _ => simp [Waits, Server.waits, ht]
    | stop ht _ => simp [Waits, Server.waits, ht]
    | exit ht => exact Server.waits_of_isOver s.server ht
    | @start t _ l l' v ht hn =>
      have thrown : ∀ x, l' = .thrown x → x ≠ .bindFailed → False := by
        rintro x rfl hx
        have hl := State.setLine_self (s := s) (t := t) (l := .start (.thrown x))
        exact absurd (h t x hl) (by rw [flag hl hx]; decide)
      cases hn with
      | noListener => exact (thrown _ rfl nofun).elim
      | interrupted _ _ => exact (thrown _ rfl nofun).elim
      | closed hc => simp [Waits, Server.waits, ht, hc]
      | _ => simp [Waits, Server.waits, ht]
  · intro hw u x hx
    have hb : x = .bindFailed := by
      rcases thrown_of_step (system_step hs) hw hx with hb | hx'
      · exact hb
      · by_contra hb
        have hi := hp u x hx'
        have hf := flag_of_reachable hr (t := u) (b := true) (by rw [hx']; rfl) (by
          rw [hx']
          cases x <;> first | rfl | exact absurd rfl hb)
        rw [hi] at hf
        cases hf
    subst hb
    exact flag_of_reachable hr' (t := u) (by rw [hx]; rfl) (by rw [hx]; rfl)

/-- Between calls nothing is left exactly if no bind that is waited for fails and every stop sees
its groups terminate. A start that throws leaves the flag cleared exactly if it has no listener to
wait for and is not interrupted. -/
theorem failed_start_iff (h : (system c).Path System.always .init as s) :
    ((∀ bs t, bs <+: as → (system c).Path System.always .init bs t → OwnsNothing t) ↔
      (system c).Path Succeeds .init as s) ∧
    ((∀ bs t, bs <+: as → (system c).Path System.always .init bs t → ThrowsUninitialized t) ↔
      (system c).Path Waits .init as s) := by
  constructor
  · exact h.everywhere_iff (ownsNothing_of_reachable .init) fun a s t hr _ hs =>
      ownsNothing_step hr hs
  · exact h.everywhere_iff nofun fun a s t hr hp hs => throws_step hr.reachable hp hs

def interruptAndStop : List Action :=
  firstStart 0 true ++ [.run 0 true, .run 0 false, .stopServer 1] ++ proceed 1 4 ++
    [.netty (.close 0), .netty (.close 1), .netty (.terminate 0), .netty (.terminate 1)] ++
    proceed 1 6

def failedStart : List Action := firstStart 0 false

theorem failed_start_interruptAndStop :
    (∀ bs t, bs <+: interruptAndStop →
      (system configProperties).Path System.always .init bs t → OwnsNothing t) ∧
    ∀ bs t, bs <+: failedStart →
      (system configProperties).Path System.always .init bs t → ThrowsUninitialized t := by
  have stop : (system configProperties).Path Succeeds .init interruptAndStop
      (after interruptAndStop) := path_to_after (by decide)
  have fail : (system configProperties).Path Waits .init failedStart (after failedStart) :=
    path_to_after (by decide)
  exact ⟨(failed_start_iff stop.forget).1.mpr stop, (failed_start_iff fail.forget).2.mpr fail⟩

theorem failedStart_leaves : ∃ s, (system configProperties).Reachable s ∧ ¬OwnsNothing s := by
  refine ⟨after failedStart, (path_after (by decide)).reachable, fun h => ?_⟩
  have hleft := (h (by decide) (by decide)).2 .running
  exact absurd (hleft (by decide)) (by decide)

end GateWayServer

end ImProxy
