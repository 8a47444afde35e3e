import ImProxy.Concurrent.Monitor
import ImProxy.Gateway.Channel
import ImProxy.Transition.System

/-! # Starting and stopping the server

`startServer` and `stopServer` hold the monitor of the one `GateWayServer`, statement
by statement, on any number of threads. Netty completes a bind, closes the listeners
of a group that is shut down and terminates the group when it pleases, and an
interrupt ends any wait that is not over.
-/

set_option autoImplicit false

namespace ImProxy

open Concurrent Transition

/-- `Boolean.parseBoolean`, of a property that may be missing. -/
def parseBoolean (s : Option String) : Bool :=
  s.any fun s => s.toList.map Char.toLower = ['t', 'r', 'u', 'e']

namespace GateWayServer

inductive ChannelClass | epollServerSocketChannel | nioServerSocketChannel
  deriving DecidableEq, Repr

/-- The properties that `NettyServer` reads, without socket options. -/
structure Config where
  ip : String
  tcpPort : ℤ
  webSocketPort : ℤ
  epoll : Option String
  webSocketInit : Option String
  tcpInit : Option String

namespace Config

variable (c : Config)

def port : Transport → ℤ
  | .tcp => c.tcpPort
  | .webSocket => c.webSocketPort

/-- `initializeWebSocketTransport` and `initializeTCPTransport` return at once if theirs is
not enabled. -/
def enabled : Transport → Bool
  | .tcp => parseBoolean c.tcpInit
  | .webSocket => parseBoolean c.webSocketInit

def channelClass : ChannelClass :=
  if parseBoolean c.epoll then .epollServerSocketChannel else .nioServerSocketChannel

end Config

inductive GroupState | running | shuttingDown | terminated
  deriving DecidableEq, Repr

/-- A group ignores a shutdown after the first. -/
def GroupState.shutdown : GroupState → GroupState
  | .running => .shuttingDown
  | g => g

/-- A listening channel is closed if its bind fails. -/
inductive ListenerState | binding | bound | failed | closed
  deriving DecidableEq, Repr

def ListenerState.isOpen : ListenerState → Bool
  | .binding => true
  | .bound => true
  | _ => false

/-- A channel registered with a boss group, and how its bind went. -/
structure Listener where
  bossGroup : Option ℕ
  channelClass : Option ChannelClass
  host : String
  port : ℤ
  state : ListenerState
  deriving DecidableEq, Repr

inductive Exception
  /-- `ChannelFuture.sync` rethrows why a bind failed. -/
  | bindFailed
  | nullPointer
  | interrupted
  | illegalState (message : String)
  deriving DecidableEq, Repr

/-- The fields of `GateWayServer` and `NettyServer`, and the event loop groups and listeners
created so far, which are referred to by their number. -/
structure Server where
  initialized : Bool
  bossGroup : Option ℕ
  workerGroup : Option ℕ
  channelClass : Option ChannelClass
  channelFuture : Option ℕ
  groups : List GroupState
  listeners : List Listener

/-- The statements of `startServer`, with `NettyServer.init` in its place. -/
inductive StartLine
  | checkInitialized
  | newBossGroup
  | newWorkerGroup
  | bind (p : Transport)
  | sync (p : Transport)
  | assignInitialized (channelFuture : Option ℕ)
  | closeFuture (channelFuture : Option ℕ)
  | returned
  | thrown (e : Exception)
  deriving DecidableEq, Repr

/-- The statements of `stopServer`, with `NettyServer.close` in its place. -/
inductive StopLine
  | checkGroups
  | shutdownWorker
  | shutdownBoss
  | awaitWorker
  | awaitBoss
  | forceWorker
  | forceBoss
  | assignInitialized
  | returned
  | thrown (e : Exception)
  deriving DecidableEq, Repr

inductive Line
  | idle
  /-- In front of the monitor. -/
  | startServer
  | stopServer
  /-- Inside of it. -/
  | start (l : StartLine)
  | stop (l : StopLine)
  deriving DecidableEq, Repr

def Line.inside : Line → Bool
  | .start _ => true
  | .stop _ => true
  | _ => false

namespace Server

def init : Server where
  initialized := false
  bossGroup := none
  workerGroup := none
  channelClass := none
  channelFuture := none
  groups := []
  listeners := []

variable (s : Server)

def group? (g : Option ℕ) : Option GroupState := g.bind (s.groups[·]?)

def isTerminated (g : Option ℕ) : Bool := s.group? g = some .terminated

def listener? (l : ℕ) : Option ListenerState := s.listeners[l]?.map Listener.state

def isClosed (l : ℕ) : Bool := (s.listener? l).any fun st => !st.isOpen

def newGroup : Server := { s with groups := s.groups ++ [.running] }

def setListener (l : ℕ) (st : ListenerState) : Server :=
  { s with listeners := s.listeners.modify l fun e => { e with state := st } }

def setGroup (g : ℕ) (f : GroupState → GroupState) : Server :=
  { s with groups := s.groups.modify g f }

/-- `bootstrap.bind`, which registers the channel with the boss group and returns. -/
def bind (c : Config) (p : Transport) : Server :=
  { s with
    listeners := s.listeners ++ [⟨s.bossGroup, s.channelClass, c.ip, c.port p, .binding⟩]
    channelFuture := some s.listeners.length }

def shutdownGracefully (g : Option ℕ) : Server :=
  match g with
  | some g => s.setGroup g .shutdown
  | none => s

/-- `if (!group.isTerminated()) group.shutdownGracefully(0, 0, ..)` -/
def forceShutdown (g : Option ℕ) : Server :=
  if s.isTerminated g then s else s.shutdownGracefully g

end Server

/-- What comes after a transport's initializer. -/
def afterBind (s : Server) : Transport → StartLine
  | .webSocket => .bind .tcp
  | .tcp => .assignInitialized s.channelFuture

/-- The next statement of `startServer`, `none` while it waits. -/
def nextStart (c : Config) (interrupted : Bool) (s : Server) :
    StartLine → Option (Server × StartLine)
  | .checkInitialized => some (s, if s.initialized then .returned else .newBossGroup)
  | .newBossGroup => some ({ s.newGroup with bossGroup := s.groups.length }, .newWorkerGroup)
  | .newWorkerGroup =>
    some ({ s.newGroup with workerGroup := s.groups.length, channelClass := c.channelClass },
      .bind .webSocket)
  | .bind p => some (if c.enabled p then (s.bind c p, .sync p) else (s, afterBind s p))
  | .sync p =>
    match s.channelFuture.bind s.listener? with
    -- an interrupt of the wait is logged and passed over
    | some .binding => if interrupted then some (s, afterBind s p) else none
    | some .failed => some (s, .thrown .bindFailed)
    | _ => some (s, afterBind s p)
  | .assignInitialized channelFuture =>
    some ({ s with initialized := true }, .closeFuture channelFuture)
  | .closeFuture none => some (s, .thrown .nullPointer)
  | .closeFuture (some l) =>
    if s.isClosed l then some (s, .returned)
    else if interrupted then some (s, .thrown .interrupted) else none
  | .returned => none
  | .thrown _ => none

/-- The next statement of `stopServer`. A wait for a group is over after ten seconds at the
latest. -/
def nextStop (interrupted : Bool) (s : Server) : StopLine → Option (Server × StopLine)
  | .checkGroups =>
    some (s, if s.workerGroup.isNone || s.bossGroup.isNone then
      .thrown (.illegalState "Invoked close on an Acceptor that wasn't initialized")
      else .shutdownWorker)
  | .shutdownWorker => some (s.shutdownGracefully s.workerGroup, .shutdownBoss)
  | .shutdownBoss => some (s.shutdownGracefully s.bossGroup, .awaitWorker)
  | .awaitWorker =>
    if interrupted && !s.isTerminated s.workerGroup then some (s, .forceWorker)
    else some (s, .awaitBoss)
  | .awaitBoss => some (s, .forceWorker)
  | .forceWorker => some (s.forceShutdown s.workerGroup, .forceBoss)
  | .forceBoss => some (s.forceShutdown s.bossGroup, .assignInitialized)
  | .assignInitialized => some ({ s with initialized := false }, .returned)
  | .returned => none
  | .thrown _ => none

/-- What Netty does to the groups and listeners. -/
inductive Event
  /-- A bind completes. -/
  | complete (l : ℕ) (success : Bool)
  /-- A boss group that is shut down closes a listener. -/
  | close (l : ℕ)
  /-- A group that is shut down and has closed its listeners ends. -/
  | terminate (g : ℕ)
  deriving DecidableEq, Repr

namespace Server

variable (s : Server)

def complete (l : ℕ) (success : Bool) : Option Server :=
  if s.listener? l = some .binding then
    some (s.setListener l (if success then .bound else .failed))
  else none

def owner (l : ℕ) : Option ℕ := s.listeners[l]?.bind Listener.bossGroup

def close (l : ℕ) : Option Server :=
  if s.group? (s.owner l) = some .shuttingDown then
    match s.listener? l with
    | some .binding => some (s.setListener l .failed)
    | some .bound => some (s.setListener l .closed)
    | _ => none
  else none

def terminate (g : ℕ) : Option Server :=
  if s.group? g = some .shuttingDown ∧
      ∀ e ∈ s.listeners, e.bossGroup = some g → e.state.isOpen = false then
    some (s.setGroup g fun _ => .terminated)
  else none

def netty : Event → Option Server
  | .complete l success => s.complete l success
  | .close l => s.close l
  | .terminate g => s.terminate g

end Server

structure State where
  server : Server
  monitor : Monitor ℕ
  line : ℕ → Line

inductive Action
  | startServer (t : ℕ)
  | stopServer (t : ℕ)
  /-- The next statement of a thread. -/
  | run (t : ℕ) (interrupted : Bool)
  | netty (e : Event)
  deriving DecidableEq, Repr

namespace State

def init : State where
  server := .init
  monitor := none
  line _ := .idle

variable (s : State)

def setLine (t : ℕ) (l : Line) : State := { s with line := Function.update s.line t l }

section SetLine

variable {s} {t u : ℕ} {l l' : Line}

@[simp] theorem setLine_self : (s.setLine t l).line t = l := by simp [setLine]

theorem setLine_of_ne (h : u ≠ t) : (s.setLine t l).line u = s.line u := by simp [setLine, h]

theorem line_of_setLine (h : (s.setLine t l).line u = l') :
    u = t ∧ l = l' ∨ u ≠ t ∧ s.line u = l' := by
  by_cases hu : u = t
  · subst hu
    exact .inl ⟨rfl, setLine_self.symm.trans h⟩
  · exact .inr ⟨hu, (setLine_of_ne hu).symm.trans h⟩

theorem line_of_setLine_ne (h : (s.setLine t l).line u = l') (hl : l ≠ l') :
    u ≠ t ∧ s.line u = l' := (line_of_setLine h).resolve_left fun hu => hl hu.2

end SetLine

def enter (t : ℕ) (l : Line) : Option State :=
  if s.monitor = none then some { s.setLine t l with monitor := some t } else none

def exit (t : ℕ) : State := { s.setLine t .idle with monitor := none }

def proceed (c : Config) (t : ℕ) (interrupted : Bool) : Line → Option State
  | .idle => none
  | .startServer => s.enter t (.start .checkInitialized)
  | .stopServer => s.enter t (.stop .checkGroups)
  | .start .returned => some (s.exit t)
  | .start (.thrown _) => some (s.exit t)
  | .stop .returned => some (s.exit t)
  | .stop (.thrown _) => some (s.exit t)
  | .start l => (nextStart c interrupted s.server l).map fun (v, l') =>
    { s.setLine t (.start l') with server := v }
  | .stop l => (nextStop interrupted s.server l).map fun (v, l') =>
    { s.setLine t (.stop l') with server := v }

def step (c : Config) (a : Action) (s : State) : Option State :=
  match a with
  | .startServer t => if s.line t = .idle then some (s.setLine t .startServer) else none
  | .stopServer t => if s.line t = .idle then some (s.setLine t .stopServer) else none
  | .run t interrupted => s.proceed c t interrupted (s.line t)
  | .netty e => (s.server.netty e).map fun v => { s with server := v }

end State

/-- The server with every thread that starts or stops it. -/
def system (c : Config) : System State Action where
  init := .init
  step := State.step c

@[simp] theorem system_init (c : Config) : (system c).init = State.init := rfl

/-- What a statement of `startServer` does. -/
inductive StartStep (c : Config) (s : Server) (interrupted : Bool) :
    StartLine → Server → StartLine → Prop

  | initialized : s.initialized = true →
      StartStep c s interrupted .checkInitialized s .returned

  | uninitialized : s.initialized = false →
      StartStep c s interrupted .checkInitialized s .newBossGroup

  | newBossGroup : StartStep c s interrupted .newBossGroup
      { s.newGroup with bossGroup := s.groups.length } .newWorkerGroup

  | newWorkerGroup : StartStep c s interrupted .newWorkerGroup
      { s.newGroup with workerGroup := s.groups.length, channelClass := c.channelClass }
      (.bind .webSocket)

  | bind {p : Transport} : c.enabled p = true →
      StartStep c s interrupted (.bind p) (s.bind c p) (.sync p)

  | disabled {p : Transport} : c.enabled p = false →
      StartStep c s interrupted (.bind p) s (afterBind s p)

  | synced {p : Transport} : s.channelFuture.bind s.listener? ≠ some .failed →
      StartStep c s interrupted (.sync p) s (afterBind s p)

  | bindFailed {p : Transport} : s.channelFuture.bind s.listener? = some .failed →
      StartStep c s interrupted (.sync p) s (.thrown .bindFailed)

  | assignInitialized {channelFuture : Option ℕ} :
      StartStep c s interrupted (.assignInitialized channelFuture)
        { s with initialized := true } (.closeFuture channelFuture)

  | noListener : StartStep c s interrupted (.closeFuture none) s (.thrown .nullPointer)

  | closed {l : ℕ} : s.isClosed l = true →
      StartStep c s interrupted (.closeFuture (some l)) s .returned

  | interrupted {l : ℕ} : s.isClosed l = false → interrupted = true →
      StartStep c s interrupted (.closeFuture (some l)) s (.thrown .interrupted)

theorem nextStart_step {c : Config} {interrupted : Bool} {s v : Server} {l l' : StartLine}
    (h : nextStart c interrupted s l = some (v, l')) : StartStep c s interrupted l v l' := by
  cases l with
  | checkInitialized =>
    cases hi : s.initialized <;> simp only [nextStart, hi, Bool.false_eq_true, if_false, if_true,
      Option.some.injEq, Prod.mk.injEq] at h <;> obtain ⟨rfl, rfl⟩ := h
    · exact .uninitialized hi
    · exact .initialized hi
  | newBossGroup => cases h; exact .newBossGroup
  | newWorkerGroup => cases h; exact .newWorkerGroup
  | bind p =>
    simp only [nextStart] at h
    split_ifs at h with he <;> cases h
    · exact .bind he
    · exact .disabled (by simpa using he)
  | sync p =>
    simp only [nextStart] at h
    split at h
    · next hl =>
      split_ifs at h
      cases h
      exact .synced (by simp [hl])
    · next hl => cases h; exact .bindFailed hl
    · next hl => cases h; exact .synced hl
  | assignInitialized channelFuture => cases h; exact .assignInitialized
  | closeFuture channelFuture =>
    cases channelFuture with
    | none => cases h; exact .noListener
    | some l =>
      simp only [nextStart] at h
      split_ifs at h with hc hi <;> cases h
      · exact .closed hc
      · exact .interrupted (by simpa using hc) hi
  | returned => cases h
  | thrown e => cases h

/-- What a statement of `stopServer` does. -/
inductive StopStep (s : Server) : StopLine → Server → StopLine → Prop

  | uninitialized {e : Exception} : s.workerGroup = none ∨ s.bossGroup = none →
      StopStep s .checkGroups s (.thrown e)

  | checkGroups {w b : ℕ} : s.workerGroup = some w → s.bossGroup = some b →
      StopStep s .checkGroups s .shutdownWorker

  | shutdownWorker :
      StopStep s .shutdownWorker (s.shutdownGracefully s.workerGroup) .shutdownBoss

  | shutdownBoss : StopStep s .shutdownBoss (s.shutdownGracefully s.bossGroup) .awaitWorker

  | awaitWorker : StopStep s .awaitWorker s .awaitBoss

  | interrupted : StopStep s .awaitWorker s .forceWorker

  | awaitBoss : StopStep s .awaitBoss s .forceWorker

  | forceWorker : StopStep s .forceWorker (s.forceShutdown s.workerGroup) .forceBoss

  | forceBoss : StopStep s .forceBoss (s.forceShutdown s.bossGroup) .assignInitialized

  | assignInitialized : StopStep s .assignInitialized { s with initialized := false } .returned

theorem nextStop_step {interrupted : Bool} {s v : Server} {l l' : StopLine}
    (h : nextStop interrupted s l = some (v, l')) : StopStep s l v l' := by
  cases l with
  | checkGroups =>
    simp only [nextStop, Option.some.injEq, Prod.mk.injEq] at h
    obtain ⟨rfl, rfl⟩ := h
    split_ifs with hg
    · exact .uninitialized (by simpa using hg)
    · simp only [Bool.or_eq_true, Option.isNone_iff_eq_none, not_or] at hg
      obtain ⟨w, hw⟩ := Option.ne_none_iff_exists'.mp hg.1
      obtain ⟨b, hb⟩ := Option.ne_none_iff_exists'.mp hg.2
      exact .checkGroups hw hb
  | awaitWorker =>
    simp only [nextStop] at h
    split_ifs at h <;> cases h
    · exact .interrupted
    · exact .awaitWorker
  | shutdownWorker => cases h; exact .shutdownWorker
  | shutdownBoss => cases h; exact .shutdownBoss
  | awaitBoss => cases h; exact .awaitBoss
  | forceWorker => cases h; exact .forceWorker
  | forceBoss => cases h; exact .forceBoss
  | assignInitialized => cases h; exact .assignInitialized
  | returned => cases h
  | thrown e => cases h

/-- What Netty does. A boss group that is shut down also closes the listeners whose bind is
under way. -/
inductive NettyStep (s : Server) : Event → Server → Prop

  | complete {l : ℕ} {success : Bool} : s.listener? l = some .binding →
      NettyStep s (.complete l success) (s.setListener l (if success then .bound else .failed))

  | closeBinding {l : ℕ} : s.group? (s.owner l) = some .shuttingDown →
      s.listener? l = some .binding → NettyStep s (.close l) (s.setListener l .failed)

  | closeBound {l : ℕ} : s.group? (s.owner l) = some .shuttingDown →
      s.listener? l = some .bound → NettyStep s (.close l) (s.setListener l .closed)

  | terminate {g : ℕ} : s.group? (some g) = some .shuttingDown →
      (∀ e ∈ s.listeners, e.bossGroup = some g → e.state.isOpen = false) →
      NettyStep s (.terminate g) (s.setGroup g fun _ => .terminated)

theorem netty_step {s v : Server} {e : Event} (h : s.netty e = some v) : NettyStep s e v := by
  cases e with
  | complete l success =>
    simp only [Server.netty, Server.complete, Option.ite_none_right_eq_some,
      Option.some.injEq] at h
    obtain ⟨hl, rfl⟩ := h
    exact .complete hl
  | close l =>
    simp only [Server.netty, Server.close, Option.ite_none_right_eq_some] at h
    obtain ⟨hg, h⟩ := h
    split at h
    next hl => cases h; exact .closeBinding hg hl
    next hl => cases h; exact .closeBound hg hl
    next => cases h
  | terminate g =>
    simp only [Server.netty, Server.terminate, Option.ite_none_right_eq_some,
      Option.some.injEq] at h
    obtain ⟨⟨hg, hl⟩, rfl⟩ := h
    exact .terminate hg hl

def Line.isOver : Line → Bool
  | .start .returned => true
  | .start (.thrown _) => true
  | .stop .returned => true
  | .stop (.thrown _) => true
  | _ => false

/-- What a step can be, with the guards it has passed. -/
inductive Step (c : Config) (s : State) : Action → State → Prop

  | startServer {t : ℕ} : s.line t = .idle →
      Step c s (.startServer t) (s.setLine t .startServer)

  | stopServer {t : ℕ} : s.line t = .idle →
      Step c s (.stopServer t) (s.setLine t .stopServer)

  | enterStart {t : ℕ} {interrupted : Bool} : s.line t = .startServer → s.monitor = none →
      Step c s (.run t interrupted)
        { s.setLine t (.start .checkInitialized) with monitor := some t }

  | enterStop {t : ℕ} {interrupted : Bool} : s.line t = .stopServer → s.monitor = none →
      Step c s (.run t interrupted) { s.setLine t (.stop .checkGroups) with monitor := some t }

  | start {t : ℕ} {interrupted : Bool} {l l' : StartLine} {v : Server} : s.line t = .start l →
      StartStep c s.server interrupted l v l' →
      Step c s (.run t interrupted) { s.setLine t (.start l') with server := v }

  | stop {t : ℕ} {interrupted : Bool} {l l' : StopLine} {v : Server} : s.line t = .stop l →
      StopStep s.server l v l' →
      Step c s (.run t interrupted) { s.setLine t (.stop l') with server := v }

  | exit {t : ℕ} {interrupted : Bool} : (s.line t).isOver = true →
      Step c s (.run t interrupted) (s.exit t)

  | netty {e : Event} {v : Server} : s.server.netty e = some v →
      Step c s (.netty e) { s with server := v }

theorem system_step {c : Config} {a : Action} {s s' : State}
    (h : (system c).step a s = some s') : Step c s a s' := by
  have enter : ∀ {t l}, s.enter t l = some s' →
      s.monitor = none ∧ { s.setLine t l with monitor := some t } = s' := fun h => by
    simpa [State.enter] using h
  cases a with
  | startServer t =>
    simp only [system, State.step, Option.ite_none_right_eq_some, Option.some.injEq] at h
    obtain ⟨hl, rfl⟩ := h
    exact .startServer hl
  | stopServer t =>
    simp only [system, State.step, Option.ite_none_right_eq_some, Option.some.injEq] at h
    obtain ⟨hl, rfl⟩ := h
    exact .stopServer hl
  | netty e =>
    obtain ⟨v, hv, rfl⟩ := Option.map_eq_some_iff.mp h
    exact .netty hv
  | run t interrupted =>
    simp only [system, State.step] at h
    generalize hl : s.line t = l at h
    unfold State.proceed at h
    split at h
    · cases h
    · obtain ⟨hm, rfl⟩ := enter h
      exact .enterStart hl hm
    · obtain ⟨hm, rfl⟩ := enter h
      exact .enterStop hl hm
    · cases h; exact .exit (by rw [hl]; rfl)
    · cases h; exact .exit (by rw [hl]; rfl)
    · cases h; exact .exit (by rw [hl]; rfl)
    · cases h; exact .exit (by rw [hl]; rfl)
    · obtain ⟨⟨v, l'⟩, hn, rfl⟩ := Option.map_eq_some_iff.mp h
      exact .start hl (nextStart_step hn)
    · obtain ⟨⟨v, l'⟩, hn, rfl⟩ := Option.map_eq_some_iff.mp h
      exact .stop hl (nextStop_step hn)

/-! ## Scenarios -/

/-- The configuration in `config.properties`. -/
def configProperties : Config where
  ip := "0.0.0.0"
  tcpPort := 1443
  webSocketPort := 8090
  epoll := some "false"
  webSocketInit := some "true"
  tcpInit := some "true"

def proceed (t n : ℕ) : List Action := List.replicate n (.run t false)

/-- A thread makes the first call of `startServer`, whose second bind may fail. -/
def firstStart (t : ℕ) (tcp : Bool) : List Action :=
  .startServer t :: proceed t 5 ++ .netty (.complete 0 true) :: proceed t 2 ++
    .netty (.complete 1 tcp) :: proceed t 2

def after (as : List Action) : State :=
  ((system configProperties).run as .init).getD .init

theorem path_after {as : List Action}
    (h : ((system configProperties).run as .init).isSome = true) :
    (system configProperties).Path System.always .init as (after as) :=
  System.path_of_isSome h

theorem path_to_after {as : List Action} {C : Condition State Action} [∀ s, DecidablePred (C s)]
    (h : ((system configProperties).runWhere C as .init).isSome = true) :
    (system configProperties).Path C .init as (after as) := by
  obtain ⟨s, hs⟩ := Option.isSome_iff_exists.mp h
  rw [after, System.run_of_runWhere hs]
  exact System.path_of_runWhere hs

end GateWayServer

end ImProxy
