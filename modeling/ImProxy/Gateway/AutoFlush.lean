import ImProxy.Concurrent.Schedule
import ImProxy.Transition.System
import Mathlib.Algebra.Order.Ring.Int

/-! # The auto-flusher of a channel

An `AutoFlushHandler` schedules a task on its event loop that flushes the channel when
no write has passed for a while. The pipeline calls the handler whenever something happens
to the channel, also from within `channelIdle`; writes pass through it. The clock never
goes back.
-/

set_option autoImplicit false

namespace ImProxy

open Concurrent Transition

inductive TimeUnit
  | nanoseconds | microseconds | milliseconds | seconds | minutes | hours | days
  deriving DecidableEq, Repr

namespace TimeUnit

def nanos : TimeUnit → ℤ
  | .nanoseconds => 1
  | .microseconds => 1000
  | .milliseconds => 1000000
  | .seconds => 1000000000
  | .minutes => 60000000000
  | .hours => 3600000000000
  | .days => 86400000000000

/-- `TimeUnit.toNanos`, which saturates at the range of `long`. -/
def toNanos (unit : TimeUnit) (d : ℤ) : ℤ := max (-2 ^ 63) (min (d * unit.nanos) (2 ^ 63 - 1))

end TimeUnit

def MIN_TIMEOUT_NANOS : ℤ := TimeUnit.milliseconds.toNanos 1

structure AutoFlushHandler where
  writerIdleTimeNanos : ℤ
  min_timeout_le : MIN_TIMEOUT_NANOS ≤ writerIdleTimeNanos

namespace AutoFlushHandler

/-- The constructor, which throws a `NullPointerException` without a unit. -/
def new (writerIdleTime : ℤ) : Option TimeUnit → Except String AutoFlushHandler
  | none => .error "unit"
  | some unit => .ok
    { writerIdleTimeNanos := max (unit.toNanos writerIdleTime) MIN_TIMEOUT_NANOS
      min_timeout_le := le_max_right _ _ }

/-- The values 0, 1 and 2 of `state`. -/
inductive HandlerState | none | initialized | destroyed
  deriving DecidableEq, Repr

/-- What a firing of the timer is calling. -/
inductive Callback
  | channelIdle
  /-- `fireExceptionCaught`, after an exception in `channelIdle`. -/
  | exceptionCaught
  deriving DecidableEq, Repr

/-- The fields of the handler, the scheduled tasks of its event loop, the clock, the channel, and
the times at which writes have passed through it. -/
structure State where
  state : HandlerState
  writerIdleTimeout : Option ℕ
  lastWriteTime : ℤ
  executor : Schedule ℤ
  nanoTime : ℤ
  isOpen : Bool
  isActive : Bool
  isRegistered : Bool
  callback : Option Callback
  written : List ℤ

def init (nanoTime : ℤ) : State where
  state := .none
  writerIdleTimeout := none
  lastWriteTime := 0
  executor := .empty
  nanoTime := nanoTime
  isOpen := true
  isActive := false
  isRegistered := false
  callback := none
  written := []

variable (h : AutoFlushHandler)

/-- Schedule a `WriterIdleTimeoutTask` and keep its future. -/
def schedule (s : State) (delay : ℤ) : State :=
  { s with
    executor := s.executor.add (s.nanoTime + delay)
    writerIdleTimeout := some s.executor.next }

/-- `initialize`, which does something only in the state 0. -/
def initializeHandler (s : State) : State :=
  match s.state with
  | .initialized => s
  | .destroyed => s
  | .none =>
    schedule { s with state := .initialized, lastWriteTime := s.nanoTime } h.writerIdleTimeNanos

def destroy (s : State) : State :=
  match s.writerIdleTimeout with
  | some i =>
    { s with state := .destroyed, executor := s.executor.remove i, writerIdleTimeout := none }
  | none => { s with state := .destroyed }

inductive Event
  | handlerAdded | handlerRemoved | channelRegistered | channelActive | channelInactive
  deriving DecidableEq, Repr

def handlerAdded (s : State) : State :=
  if s.isActive && s.isRegistered then h.initializeHandler s else s

def channelRegistered (s : State) : State := if s.isActive then h.initializeHandler s else s

def handle : Event → State → State
  | .handlerAdded => h.handlerAdded
  | .handlerRemoved => destroy
  | .channelRegistered => h.channelRegistered
  | .channelActive => h.initializeHandler
  | .channelInactive => destroy

/-- `WriterIdleTimeoutTask.run`, up to the call of `channelIdle`. -/
def run (s : State) : State :=
  if !s.isOpen then s
  else
    let nextDelay := h.writerIdleTimeNanos - (s.nanoTime - s.lastWriteTime)
    if nextDelay ≤ 0 then
      { schedule s h.writerIdleTimeNanos with callback := some .channelIdle }
    else schedule s nextDelay

def take (s : State) (i : ℕ) : State := { s with executor := s.executor.remove i }

inductive Action
  | event (e : Event)
  /-- A write passes through the channel. -/
  | write
  /-- The channel changes; once closed it stays closed. -/
  | channel (isOpen isActive isRegistered : Bool)
  | tick (nanos : ℕ)
  /-- The event loop, between two tasks, runs one that is due. -/
  | fire (i : ℕ)
  /-- The callback returns or throws. -/
  | finish (throws : Bool)
  deriving DecidableEq, Repr

def step (a : Action) (s : State) : Option State :=
  match a with
  | .event e => some (h.handle e s)
  | .write => some { s with written := s.written ++ [s.nanoTime] }
  | .channel isOpen isActive isRegistered =>
    if isOpen = true → s.isOpen = true then some { s with isOpen, isActive, isRegistered } else none
  | .tick nanos => some { s with nanoTime := s.nanoTime + nanos }
  | .fire i =>
    if s.callback = none ∧ s.executor.isDue i s.nanoTime = true then
      some (h.run (take s i))
    else none
  | .finish throws =>
    match s.callback with
    | some .channelIdle =>
      some { s with callback := if throws then some .exceptionCaught else none }
    | some .exceptionCaught => some { s with callback := none }
    | none => none

def system (nanoTime : ℤ) : System State Action where
  init := init nanoTime
  step := h.step

variable {h} {s s' : State} {e : Event} {i : ℕ} {delay : ℤ}

theorem writerIdleTimeNanos_pos (h : AutoFlushHandler) : 0 < h.writerIdleTimeNanos :=
  lt_of_lt_of_le (by decide) h.min_timeout_le

theorem handle_cases (e : Event) (s : State) :
    h.handle e s = s ∨ h.handle e s = h.initializeHandler s ∨ h.handle e s = destroy s := by
  cases e with
  | handlerAdded =>
    simp only [handle, handlerAdded]
    split
    · exact .inr (.inl rfl)
    · exact .inl rfl
  | channelRegistered =>
    simp only [handle, channelRegistered]
    split
    · exact .inr (.inl rfl)
    · exact .inl rfl
  | channelActive => exact .inr (.inl rfl)
  | handlerRemoved | channelInactive => exact .inr (.inr rfl)

theorem state_destroy (s : State) : (destroy s).state = .destroyed := by
  unfold destroy
  split <;> rfl

theorem run_of_closed (ho : s.isOpen = false) : h.run s = s := by simp [run, ho]

theorem run_of_idle (ho : s.isOpen = true)
    (hi : s.lastWriteTime + h.writerIdleTimeNanos ≤ s.nanoTime) :
    h.run s = { schedule s h.writerIdleTimeNanos with callback := some .channelIdle } := by
  have hd : h.writerIdleTimeNanos - (s.nanoTime - s.lastWriteTime) ≤ 0 := by omega
  simp [run, ho, hd]

theorem step_fire (hs : h.step (.fire i) s = some s') :
    s.callback = none ∧ s.executor.isDue i s.nanoTime = true ∧
      s' = h.run (take s i) := by
  simp only [step] at hs
  split_ifs at hs with hc
  exact ⟨hc.1, hc.2, (Option.some.inj hs).symm⟩

/-! ## The handler of a connection -/

/-- The handler that `setupAutoFlusher` adds for the flush interval of 500 milliseconds. -/
def autoFlusher : AutoFlushHandler where
  writerIdleTimeNanos := 500000000
  min_timeout_le := by decide

example : new 500 (some .milliseconds) = .ok autoFlusher := rfl

def after (as : List Action) : State := ((autoFlusher.system 0).run as (init 0)).getD (init 0)

theorem path_after {as : List Action}
    (h : ((autoFlusher.system 0).run as (init 0)).isSome = true) :
    (autoFlusher.system 0).Path System.always (init 0) as (after as) := System.path_of_isSome h

end AutoFlushHandler

end ImProxy
