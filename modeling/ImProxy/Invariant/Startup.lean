import ImProxy.Gateway.Server

/-! # Inside the monitor of the server

Whatever the threads do, the server changes as if the statements inside the monitor
ran alone: an invariant of the server and of the line of the thread inside is proved
from these statements and from what Netty does.
-/

set_option autoImplicit false

namespace ImProxy

open Concurrent Transition

namespace GateWayServer

variable {c : Config} {s s' : State} {v v' : Server} {a : Action} {C : Condition State Action}
  {t u : ℕ} {l l' : Line} {interrupted : Bool} {e : Event}

/-- Exactly the thread that holds the monitor is inside. -/
def Guarded (s : State) : Prop := s.monitor.Guards (fun l => l.inside = true) s.line

theorem Line.inside_of_isOver (h : l.isOver = true) : l.inside = true := by
  unfold Line.isOver at h
  split at h <;> first | rfl | cases h

theorem State.inside_of_start {l : StartLine} (h : s.line t = .start l) :
    (s.line t).inside = true := by rw [h]; rfl

theorem State.inside_of_stop {l : StopLine} (h : s.line t = .stop l) :
    (s.line t).inside = true := by rw [h]; rfl

theorem Guarded.step (hs : Guarded s) (h : Step c s a s') : Guarded s' := by
  cases h with
  | startServer hl | stopServer hl => exact Monitor.Guards.stay hs (by simp [hl, Line.inside])
  | enterStart _ hm | enterStop _ hm =>
    unfold Guarded at hs
    rw [hm] at hs
    exact hs.enter rfl
  | start hl _ | stop hl _ => exact Monitor.Guards.stay hs (by simp [hl, Line.inside])
  | exit hl => exact Monitor.Guards.exit hs (Line.inside_of_isOver hl) (by simp [Line.inside])
  | netty _ => exact hs

theorem reachable_guarded (h : (system c).Reachable s) : Guarded s :=
  h.invariant (fun t => by simp [State.init, Line.inside]) fun _ _ _ _ hs ht =>
    hs.step (system_step ht)

def State.current (s : State) : Line := Monitor.current s.monitor .idle s.line

/-- A property of the server and the current line that every statement inside the monitor and
everything Netty does preserve, on runs whose steps meet a condition. -/
structure SerialInvariant (c : Config) (C : Condition State Action) (P : Server → Line → Prop) :
    Prop where

  init : P .init .idle

  enterStart : ∀ {v}, P v .idle → P v (.start .checkInitialized)

  enterStop : ∀ {v}, P v .idle → P v (.stop .checkGroups)

  start : ∀ {s t interrupted l v l'}, (system c).ReachableWhere C s → C s (.run t interrupted) →
    s.line t = .start l → StartStep c s.server interrupted l v l' → P s.server (.start l) →
    P v (.start l')

  stop : ∀ {s t interrupted l v l'}, (system c).ReachableWhere C s → C s (.run t interrupted) →
    s.line t = .stop l → StopStep s.server l v l' → P s.server (.stop l) → P v (.stop l')

  exit : ∀ {v l}, l.isOver = true → P v l → P v .idle

  netty : ∀ {v v' l e}, v.netty e = some v' → P v l → P v' l

theorem SerialInvariant.step {P : Server → Line → Prop} (hP : SerialInvariant c C P)
    (hr : (system c).ReachableWhere C s) (hs : P s.server s.current) (hc : C s a)
    (h : Step c s a s') : P s'.server s'.current := by
  have hg := reachable_guarded hr.reachable
  have outside : ∀ {t l}, s.line t = .idle → (s.setLine t l).current = s.current := fun ht =>
    Monitor.Guards.current_update hg (by simp [ht, Line.inside])
  have inside : ∀ {t}, (s.line t).inside = true → s.current = s.line t := fun ht =>
    Monitor.Guards.current_eq hg ht
  have update : ∀ {t l}, (s.line t).inside = true → (s.setLine t l).current = l := by
    intro t l ht
    have hm := Monitor.Guards.holder hg ht
    simp [State.current, State.setLine, hm]
  cases h with
  | startServer ht | stopServer ht =>
    rw [outside ht]
    exact hs
  | @enterStart t _ _ hm =>
    rw [State.current, hm] at hs
    simpa [State.current, State.setLine] using hP.enterStart hs
  | @enterStop t _ _ hm =>
    rw [State.current, hm] at hs
    simpa [State.current, State.setLine] using hP.enterStop hs
  | @start t _ l l' v ht hn =>
    have hi := State.inside_of_start ht
    rw [inside hi, ht] at hs
    have := hP.start hr hc ht hn hs
    rwa [← update hi (l := .start l')] at this
  | @stop t _ l l' v ht hn =>
    have hi := State.inside_of_stop ht
    rw [inside hi, ht] at hs
    have := hP.stop hr hc ht hn hs
    rwa [← update hi (l := .stop l')] at this
  | exit ht =>
    rw [inside (Line.inside_of_isOver ht)] at hs
    exact hP.exit ht hs
  | netty hv => exact hP.netty hv hs

theorem SerialInvariant.reachable {P : Server → Line → Prop} (hP : SerialInvariant c C P)
    (h : (system c).ReachableWhere C s) : P s.server s.current :=
  h.invariant (P := fun s => P s.server s.current) hP.init fun _ _ _ hr hs hc ht =>
    hP.step hr hs hc (system_step ht)

/-- The rule for the thread that is inside. -/
theorem SerialInvariant.inside {P : Server → Line → Prop} (hP : SerialInvariant c C P)
    (h : (system c).ReachableWhere C s) (hl : (s.line t).inside = true) :
    P s.server (s.line t) := by
  have hs := hP.reachable h
  rwa [State.current, Monitor.Guards.current_eq (reachable_guarded h.reachable) hl] at hs

/-! ## Groups and listeners -/

namespace Server

variable (v : Server) {g : Option ℕ} {k n : ℕ} {st : ListenerState}

theorem group?_newGroup {st : GroupState} (h : v.group? g = some st) :
    v.newGroup.group? g = some st := by
  obtain ⟨k, rfl, hk⟩ := Option.bind_eq_some_iff.mp h
  exact (List.getElem?_append_left (List.getElem?_eq_some_iff.mp hk).1).trans hk

theorem group?_length : v.newGroup.group? (some v.groups.length) = some .running := by
  simp [group?, newGroup]

theorem group?_newGroup_cases {st : GroupState} (h : v.newGroup.group? (some k) = some st) :
    k = v.groups.length ∧ st = .running ∨ v.group? (some k) = some st := by
  simp only [group?, newGroup, Option.bind_some, List.getElem?_append] at h ⊢
  split_ifs at h with hk
  · exact .inr h
  · obtain ⟨hlt, rfl⟩ := List.getElem?_eq_some_iff.mp h
    rw [List.length_singleton] at hlt
    exact .inl ⟨by omega, List.getElem_singleton _⟩

@[simp] theorem group?_setListener : (v.setListener k st).group? g = v.group? g := rfl

@[simp] theorem group?_bind (p : Transport) : (v.bind c p).group? g = v.group? g := rfl

theorem group?_setGroup (f : GroupState → GroupState) :
    (v.setGroup k f).group? g = if g = some k then (v.group? g).map f else v.group? g := by
  cases g with
  | none => rfl
  | some n =>
    simp only [group?, setGroup, Option.bind_some, List.getElem?_modify, Option.some.injEq,
      eq_comm (a := n)]
    split_ifs
    · rfl
    · exact Option.map_id'

@[simp] theorem listener?_setGroup (f : GroupState → GroupState) :
    (v.setGroup k f).listener? n = v.listener? n := rfl

theorem listener?_setListener : (v.setListener k st).listener? n =
    if n = k then (v.listener? n).map fun _ => st else v.listener? n := by
  simp only [listener?, setListener, List.getElem?_modify, eq_comm (a := n)]
  split_ifs
  · simp [Option.map_map, Function.comp_def]
  · simp

@[simp] theorem owner_setGroup (f : GroupState → GroupState) :
    (v.setGroup k f).owner n = v.owner n := rfl

@[simp] theorem owner_setListener : (v.setListener k st).owner n = v.owner n := by
  simp only [owner, setListener, List.getElem?_modify]
  cases v.listeners[n]? with
  | none => rfl
  | some e => simp only [Option.bind_some]; split_ifs <;> rfl

@[simp] theorem shutdownGracefully_channelFuture :
    (v.shutdownGracefully g).channelFuture = v.channelFuture := by cases g <;> rfl

@[simp] theorem shutdownGracefully_bossGroup :
    (v.shutdownGracefully g).bossGroup = v.bossGroup := by cases g <;> rfl

@[simp] theorem shutdownGracefully_workerGroup :
    (v.shutdownGracefully g).workerGroup = v.workerGroup := by cases g <;> rfl

@[simp] theorem shutdownGracefully_listeners :
    (v.shutdownGracefully g).listeners = v.listeners := by cases g <;> rfl

theorem forceShutdown_eq : v.forceShutdown g = v.shutdownGracefully g := by
  unfold forceShutdown
  split_ifs with ht
  · cases g with
    | none => rfl
    | some k =>
      have hk : v.groups[k]? = some .terminated := of_decide_eq_true ht
      have hm : v.groups.modify k .shutdown = v.groups := by
        apply List.ext_getElem?
        intro n
        rw [List.getElem?_modify]
        split_ifs with hn
        · rw [← hn, hk]; rfl
        · exact Option.map_id'
      rw [shutdownGracefully, setGroup, hm]
  · rfl

theorem netty_eq {v v' : Server} (h : v.netty e = some v') :
    v'.initialized = v.initialized ∧ v'.bossGroup = v.bossGroup ∧
      v'.workerGroup = v.workerGroup ∧ v'.channelFuture = v.channelFuture ∧
      (∀ n, v'.owner n = v.owner n) ∧
      ∀ g, v.group? g = some .running → v'.group? g = some .running := by
  cases netty_step h with
  | complete _ | closeBinding _ _ | closeBound _ _ =>
    exact ⟨rfl, rfl, rfl, rfl, fun n => owner_setListener v, fun _ h => h⟩
  | terminate hk _ =>
    refine ⟨rfl, rfl, rfl, rfl, fun n => rfl, fun g hg => ?_⟩
    rw [group?_setGroup, if_neg]
    · exact hg
    · rintro rfl
      simp [hk] at hg

theorem netty_group? {v v' : Server} {st : GroupState} (h : v.netty e = some v')
    (hg : v'.group? g = some st) : v.group? g = some st ∨ st = .terminated := by
  cases netty_step h with
  | complete _ | closeBinding _ _ | closeBound _ _ => exact .inl hg
  | terminate _ _ =>
    rw [group?_setGroup] at hg
    split_ifs at hg
    · obtain ⟨_, -, rfl⟩ := Option.map_eq_some_iff.mp hg
      exact .inr rfl
    · exact .inl hg

end Server

/-! ## The flag -/

def Line.flag : Line → Option Bool
  | .start .checkInitialized => none
  | .start .returned => some true
  | .start (.closeFuture _) => some true
  | .start (.thrown .bindFailed) => some false
  | .start (.thrown _) => some true
  | .start _ => some false
  | .stop .returned => some false
  | _ => none

theorem afterBind_flag (v : Server) (p : Transport) :
    (Line.start (afterBind v p)).flag = some false := by
  cases p <;> rfl

theorem flag_invariant :
    SerialInvariant c System.always fun v l => ∀ b ∈ l.flag, v.initialized = b where
  init := by simp [Line.flag]
  enterStart _ := by simp [Line.flag]
  enterStop _ := by simp [Line.flag]
  start {s t _ l v l'} _ _ _ h hs := by
    cases h with
    | initialized hi => simpa [Line.flag] using hi
    | uninitialized hi => simpa [Line.flag] using hi
    | disabled _ | synced _ => rw [afterBind_flag]; exact hs
    | assignInitialized => simp [Line.flag]
    | newBossGroup | newWorkerGroup | bind _ | bindFailed _ | noListener | closed _
    | interrupted _ _ => exact hs
  stop _ _ _ h hs := by
    cases h <;> simp [Line.flag]
  exit _ _ := by simp [Line.flag]
  netty hv hs b hb := by
    rw [(Server.netty_eq hv).1]
    exact hs b hb

theorem flag_of_reachable (h : (system c).Reachable s) (hl : (s.line t).inside = true) {b : Bool}
    (hb : (s.line t).flag = some b) : s.server.initialized = b :=
  flag_invariant.inside h hl b hb

/-! ## The groups of a start -/

/-- The lines at which the boss group of a start runs. -/
def Line.running : Line → Bool
  | .start .newWorkerGroup => true
  | .start (.bind _) => true
  | .start (.sync _) => true
  | .start (.assignInitialized _) => true
  | .start (.closeFuture _) => true
  | .start (.thrown .bindFailed) => true
  | _ => false

theorem running_invariant : SerialInvariant c System.always fun v l =>
    l.running = true → v.group? v.bossGroup = some .running where
  init := nofun
  enterStart _ := nofun
  enterStop _ := nofun
  start {s t _ l v l'} _ _ _ h hs := by
    cases h with
    | initialized _ | uninitialized _ | noListener | closed _ | interrupted _ _ => nofun
    | newBossGroup => exact fun _ => Server.group?_length _
    | newWorkerGroup => exact fun _ => Server.group?_newGroup _ (hs rfl)
    | bind _ | disabled _ | synced _ | bindFailed _ | assignInitialized =>
      exact fun _ => hs rfl
  stop _ _ _ h _ := by
    cases h <;> nofun
  exit _ _ := nofun
  netty hv hs hl := by
    obtain ⟨-, hb, -, -, -, hg⟩ := Server.netty_eq hv
    rw [hb]
    exact hg _ (hs hl)

/-- The last listener was bound on the current boss group. -/
def Server.OnBoss (v : Server) : Prop := ∀ k, v.channelFuture = some k → v.owner k = v.bossGroup

/-- Where `channelFuture` is the listener of this start. -/
def Fresh (c : Config) (v : Server) : Line → Prop
  | .start (.bind .tcp) => c.enabled .webSocket = true → v.OnBoss
  | .start (.sync _) => v.OnBoss
  | .start (.assignInitialized channelFuture) => channelFuture = v.channelFuture ∧ v.OnBoss
  | .start (.closeFuture channelFuture) => channelFuture = v.channelFuture ∧ v.OnBoss
  | _ => True

theorem onBoss_bind (v : Server) (p : Transport) : (v.bind c p).OnBoss := by
  rintro k ⟨⟩
  simp [Server.owner, Server.bind]

theorem Fresh.mono {l : Line} (h : Fresh c v l) (hf : v'.channelFuture = v.channelFuture)
    (ho : v.OnBoss → v'.OnBoss) : Fresh c v' l := by
  unfold Fresh at h ⊢
  split
  · exact fun he => ho (h he)
  · exact ho h
  · exact ⟨h.1.trans hf.symm, ho h.2⟩
  · exact ⟨h.1.trans hf.symm, ho h.2⟩
  · trivial

/-- Without a transport there is never a listener. -/
theorem fresh_invariant : SerialInvariant c System.always fun v l =>
    Fresh c v l ∧ ((∀ p, c.enabled p = false) → v.channelFuture = none) where
  init := ⟨trivial, fun _ => rfl⟩
  enterStart h := ⟨trivial, h.2⟩
  enterStop h := ⟨trivial, h.2⟩
  start {s t _ l v l'} _ _ _ h hs := by
    cases h with
    | initialized _ | uninitialized _ | newBossGroup | newWorkerGroup | noListener | closed _
    | interrupted _ _ | bindFailed _ => exact ⟨trivial, hs.2⟩
    | @bind p he => exact ⟨onBoss_bind _ p, fun hn => by simp [hn] at he⟩
    | @disabled p he =>
      cases p with
      | webSocket => exact ⟨fun h => by simp [he] at h, hs.2⟩
      | tcp =>
        refine ⟨⟨rfl, ?_⟩, hs.2⟩
        cases hw : c.enabled .webSocket with
        | true => exact hs.1 hw
        | false =>
          intro k hk
          rw [hs.2 (by rintro (_ | _) <;> assumption)] at hk
          cases hk
    | @synced p _ =>
      cases p with
      | webSocket => exact ⟨fun _ => hs.1, hs.2⟩
      | tcp => exact ⟨⟨rfl, hs.1⟩, hs.2⟩
    | assignInitialized => exact hs
  stop _ _ _ h hs := by
    cases h with
    | shutdownWorker | shutdownBoss => exact ⟨trivial, by simpa using hs.2⟩
    | forceWorker | forceBoss => exact ⟨trivial, by simpa [Server.forceShutdown_eq] using hs.2⟩
    | _ => exact ⟨trivial, hs.2⟩
  exit _ h := ⟨trivial, h.2⟩
  netty {v v' l e} hv hs := by
    obtain ⟨-, hb, -, hf, ho, -⟩ := Server.netty_eq hv
    refine ⟨hs.1.mono hf fun h k hk => ?_, fun h => hf.trans (hs.2 h)⟩
    rw [ho, hb]
    exact h k (hf ▸ hk)

end GateWayServer

end ImProxy
