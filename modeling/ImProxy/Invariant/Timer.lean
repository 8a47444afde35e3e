import ImProxy.Gateway.AutoFlush

/-! # The timer of the auto-flusher

The task schedules itself again without a look at the state of the handler. What keeps
it single is that the future of the handler denotes whatever is pending, so that a firing
and a cancellation both leave nothing behind.
-/

set_option autoImplicit false

namespace ImProxy

open Concurrent Transition

namespace AutoFlushHandler

variable {h : AutoFlushHandler} {s s' : State} {e : Event} {a : Action} {i n : ℕ} {delay t₀ : ℤ}

/-- The future denotes all that is pending. There is a pending task only if the handler is
initialized, and then always while the channel is open. It is not due before the idle time has
passed. -/
structure Armed (h : AutoFlushHandler) (s : State) : Prop where

  denotes : s.executor.Denotes s.writerIdleTimeout

  initialized : s.executor.pending ≠ [] → s.state = .initialized

  pending : s.state = .initialized → s.isOpen = true → s.executor.pending ≠ []

  deadline : ∀ t ∈ s.executor.pending, s.lastWriteTime + h.writerIdleTimeNanos ≤ t.deadline

namespace Armed

theorem of_nil (hp : s.executor.pending = []) (ho : s.state = .initialized → s.isOpen = false) :
    h.Armed s where
  denotes := .of_nil hp
  initialized hn := absurd hp hn
  pending hi hs := by
    rw [ho hi] at hs
    cases hs
  deadline := by simp [hp]

theorem schedule (hp : s.executor.pending = []) (hi : s.state = .initialized)
    (hd : s.lastWriteTime + h.writerIdleTimeNanos ≤ s.nanoTime + delay) :
    h.Armed (schedule s delay) := by
  have hn := Schedule.pending_add_of_nil (d := s.nanoTime + delay) hp
  refine ⟨.add hp, fun _ => hi, fun _ _ => ?_, fun t ht => ?_⟩
  · simp [AutoFlushHandler.schedule, hn]
  · have ht : t ∈ [⟨s.executor.next, s.nanoTime + delay⟩] := hn ▸ ht
    rw [List.mem_singleton.mp ht]
    exact hd

theorem nil (hs : h.Armed s) (hi : s.state ≠ .initialized) : s.executor.pending = [] := by
  by_contra hp
  exact hi (hs.initialized hp)

theorem initializeHandler (hs : h.Armed s) : h.Armed (h.initializeHandler s) := by
  unfold AutoFlushHandler.initializeHandler
  split
  · exact hs
  · exact hs
  next hn => exact schedule (hs.nil (by simp [hn])) rfl (le_refl _)

theorem pending_destroy (hs : h.Armed s) : (destroy s).executor.pending = [] := by
  have hd := hs.denotes
  unfold destroy
  split
  next i hi =>
    rw [hi] at hd
    exact hd.remove
  next hi =>
    rw [hi] at hd
    exact hd.nil_of_none

theorem destroy (hs : h.Armed s) : h.Armed (destroy s) :=
  .of_nil hs.pending_destroy fun hi => by
    rw [state_destroy s] at hi
    cases hi

theorem handle (hs : h.Armed s) (e : Event) : h.Armed (h.handle e s) := by
  rcases h.handle_cases e s with he | he | he <;> rw [he]
  · exact hs
  · exact hs.initializeHandler
  · exact hs.destroy

/-- The task that fires was the only one, and the idle time has passed. -/
theorem fired (hs : h.Armed s) (hi : s.executor.isDue i s.nanoTime = true) :
    s.state = .initialized ∧ (s.executor.remove i).pending = [] ∧
      s.lastWriteTime + h.writerIdleTimeNanos ≤ s.nanoTime := by
  obtain ⟨t, ht, rfl, hd⟩ := Schedule.isDue_iff.mp hi
  have hden := hs.denotes
  rw [hs.denotes t ht] at hden
  exact ⟨hs.initialized (List.ne_nil_of_mem ht), hden.remove, le_trans (hs.deadline t ht) hd⟩

theorem run_take (hs : h.Armed s) (hi : s.executor.isDue i s.nanoTime = true)
    (ho : s.isOpen = true) :
    h.run (take s i) =
      { AutoFlushHandler.schedule (take s i) h.writerIdleTimeNanos with
        callback := some .channelIdle } := run_of_idle ho (hs.fired hi).2.2

theorem run (hs : h.Armed s) (hi : s.executor.isDue i s.nanoTime = true) :
    h.Armed (h.run (take s i)) := by
  obtain ⟨hinit, hp, hd⟩ := hs.fired hi
  by_cases ho : s.isOpen = true
  · rw [hs.run_take hi ho]
    have hpos := h.writerIdleTimeNanos_pos
    have hsch : h.Armed (AutoFlushHandler.schedule (take s i) h.writerIdleTimeNanos) :=
      schedule hp hinit (by simp only [take]; omega)
    exact ⟨hsch.denotes, hsch.initialized, hsch.pending, hsch.deadline⟩
  · have ho := eq_false_of_ne_true ho
    rw [run_of_closed (s := take s i) ho]
    exact .of_nil hp fun _ => ho

theorem step (hs : h.Armed s) (ht : h.step a s = some s') : h.Armed s' := by
  cases a with
  | event e =>
    cases ht
    exact hs.handle e
  | write | tick nanos =>
    cases ht
    exact ⟨hs.denotes, hs.initialized, hs.pending, hs.deadline⟩
  | channel isOpen isActive isRegistered =>
    simp only [AutoFlushHandler.step] at ht
    split_ifs at ht with ho
    cases ht
    -- a closed channel needs no task
    exact ⟨hs.denotes, hs.initialized, fun hi hopen => hs.pending hi (ho hopen), hs.deadline⟩
  | fire i =>
    obtain ⟨-, hi, rfl⟩ := step_fire ht
    exact hs.run hi
  | finish throws =>
    simp only [AutoFlushHandler.step] at ht
    split at ht <;> cases ht <;>
      exact ⟨hs.denotes, hs.initialized, hs.pending, hs.deadline⟩

end Armed

theorem armed_of_reachable (hr : (h.system t₀).Reachable s) : h.Armed s :=
  hr.invariant (.of_nil rfl nofun) fun _ _ _ _ hs ht => hs.step ht

/-- A destroyed handler has nothing pending, and has scheduled so many tasks. -/
structure Destroyed (n : ℕ) (s : State) : Prop where

  state : s.state = .destroyed

  pending : s.executor.pending = []

  next : s.executor.next = n

namespace Destroyed

theorem initializeHandler (hs : Destroyed n s) : h.initializeHandler s = s := by
  simp [AutoFlushHandler.initializeHandler, hs.state]

theorem destroy (hs : Destroyed n s) : Destroyed n (destroy s) := by
  unfold AutoFlushHandler.destroy
  split
  · exact ⟨rfl, Schedule.pending_remove_of_nil hs.pending, hs.next⟩
  · exact ⟨rfl, hs.pending, hs.next⟩

theorem handle (hs : Destroyed n s) (e : Event) : Destroyed n (h.handle e s) := by
  rcases h.handle_cases e s with he | he | he <;> rw [he]
  · exact hs
  · rwa [hs.initializeHandler]
  · exact hs.destroy

theorem step (hs : Destroyed n s) (ht : h.step a s = some s') : Destroyed n s' := by
  cases a with
  | event e =>
    cases ht
    exact hs.handle e
  | write | tick nanos =>
    cases ht
    exact ⟨hs.state, hs.pending, hs.next⟩
  | channel isOpen isActive isRegistered =>
    simp only [AutoFlushHandler.step] at ht
    split_ifs at ht
    cases ht
    exact ⟨hs.state, hs.pending, hs.next⟩
  | fire i =>
    obtain ⟨-, hi, -⟩ := step_fire ht
    obtain ⟨t, hp, -⟩ := Schedule.isDue_iff.mp hi
    simp [hs.pending] at hp
  | finish throws =>
    simp only [AutoFlushHandler.step] at ht
    split at ht <;> cases ht <;> exact ⟨hs.state, hs.pending, hs.next⟩

end Destroyed

end AutoFlushHandler

end ImProxy
