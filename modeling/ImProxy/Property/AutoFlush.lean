import ImProxy.Invariant.Timer

/-! # When the auto-flusher flushes

The timer of a handler is single and dies with it. It reads the time of the last write
from a field that is set only when the handler starts, since no write is seen by the
handler, so from the first firing on the channel is flushed at every firing.
-/

set_option autoImplicit false

namespace ImProxy

open Concurrent Transition

namespace AutoFlushHandler

variable {h : AutoFlushHandler} {s s' : State} {a : Action} {as : List Action} {t₀ : ℤ}

/-- At most one task is pending, and exactly one while the handler is initialized and its channel
is open. Once the channel has become inactive or the handler is removed, none is pending and none
is ever scheduled. -/
theorem timer_single (hr : (h.system t₀).Reachable s) :
    s.executor.pending.length ≤ 1 ∧
    (s.state = .initialized → s.isOpen = true → s.executor.pending.length = 1) ∧
    ∀ e s', e = .channelInactive ∨ e = .handlerRemoved → h.step (.event e) s = some s' →
      ∀ as t, (h.system t₀).Path System.always s' as t →
        t.executor.pending = [] ∧ t.executor.next = s'.executor.next := by
  have hs := armed_of_reachable hr
  refine ⟨hs.denotes.length_le, fun hi ho => ?_, fun e s' he hs' as t ht => ?_⟩
  · have hpos := List.length_pos_iff.mpr (hs.pending hi ho)
    have hle := hs.denotes.length_le
    omega
  · have hd : Destroyed s'.executor.next s' := by
      rcases he with rfl | rfl <;> cases hs' <;>
        exact ⟨state_destroy s, hs.pending_destroy, rfl⟩
    have hend := ht.invariant hd fun _ _ _ hd _ hstep => hd.step hstep
    exact ⟨hend.pending, hend.next⟩

def firstFiring : List Action :=
  [.channel true true true, .event .handlerAdded, .tick 500000000, .fire 0]

theorem timer_single_firstFiring :
    (after firstFiring).executor.pending.length = 1 ∧
    ∀ s', autoFlusher.step (.event .channelInactive) (after firstFiring) = some s' →
      ∀ as t, (autoFlusher.system 0).Path System.always s' as t →
        t.executor.pending = [] ∧ t.executor.next = s'.executor.next := by
  have hr : (autoFlusher.system 0).Reachable (after firstFiring) :=
    (path_after (by decide)).reachable
  obtain ⟨-, hopen, hend⟩ := timer_single hr
  exact ⟨hopen (by decide) (by decide), fun s' => hend .channelInactive s' (.inl rfl)⟩

/-- No write has passed through the channel for the idle time. -/
def Idle (h : AutoFlushHandler) (s : State) : Prop :=
  ∀ w ∈ s.written, w + h.writerIdleTimeNanos ≤ s.nanoTime

/-- A firing calls `channelIdle` only on an idle channel. After a write within the idle time it
schedules the task again, for no earlier than the idle time after the write. -/
def FlushesWhenIdle (h : AutoFlushHandler) : Condition State Action := fun s a =>
  match a with
  | .fire _ => ∀ s', h.step a s = some s' →
      (s'.callback = some .channelIdle → h.Idle s) ∧
      (s.isOpen = true → ∀ w ∈ s.written, s.nanoTime < w + h.writerIdleTimeNanos →
        ∃ t, s'.executor.pending = [t] ∧ w + h.writerIdleTimeNanos ≤ t.deadline)
  | _ => True

/-- The timer fires on an open channel only if the channel is idle. -/
def FiresWhenIdle (h : AutoFlushHandler) : Condition State Action := fun s a =>
  match a with
  | .fire _ => s.isOpen = true → h.Idle s
  | _ => True

/-- Every firing on an open channel flushes it. -/
theorem callback_fire (hr : (h.system t₀).Reachable s) {i : ℕ}
    (hs : h.step (.fire i) s = some s') :
    s'.callback = if s.isOpen then some .channelIdle else none := by
  obtain ⟨hc, hi, rfl⟩ := step_fire hs
  split
  next ho => rw [(armed_of_reachable hr).run_take hi ho]
  next ho =>
    rw [run_of_closed (s := take s i) (eq_false_of_ne_true ho)]
    exact hc

theorem flushesWhenIdle_iff (hr : (h.system t₀).Reachable s) (hs : h.step a s = some s') :
    h.FlushesWhenIdle s a ↔ h.FiresWhenIdle s a := by
  cases a with
  | event _ | write | channel _ _ _ | tick _ | finish _ => exact Iff.rfl
  | fire i =>
    constructor
    · intro hf ho
      refine (hf s' hs).1 ?_
      rw [callback_fire hr hs, if_pos ho]
    · intro hq u hu
      refine ⟨fun hc => ?_, fun ho w hw hlt => ?_⟩
      · rw [callback_fire hr hu] at hc
        split at hc
        next ho => exact hq ho
        next => cases hc
      · have hle := hq ho w hw
        omega

/-- Exactly in the runs whose firings all find the channel idle the handler flushes only when it
is. -/
theorem flushes_when_idle_iff :
    (h.system t₀).Path h.FlushesWhenIdle (init t₀) as s ↔
      (h.system t₀).Path h.FiresWhenIdle (init t₀) as s := by
  constructor
  · exact System.Path.weaken fun _ _ _ hr hs => (flushesWhenIdle_iff hr hs).mp
  · exact System.Path.weaken fun _ _ _ hr hs => (flushesWhenIdle_iff hr hs).mpr

def writeBeforeFiring : List Action :=
  [.channel true true true, .event .handlerAdded, .tick 499999999, .write, .tick 1]

theorem flushes_after_write : ∃ s, (autoFlusher.system 0).Reachable s ∧
    ¬autoFlusher.FlushesWhenIdle s (.fire 0) := by
  refine ⟨after writeBeforeFiring, (path_after (by decide)).reachable, fun hf => ?_⟩
  have hidle : autoFlusher.Idle (after writeBeforeFiring) := (hf _ rfl).1 (by decide)
  exact absurd (hidle 499999999 (by decide)) (by decide)

end AutoFlushHandler

end ImProxy
