import ImProxy.Invariant.Registry

/-! # Threads that do nothing

A thread stays idle, posts nothing and receives nothing in a run without an action of
its own.
-/

set_option autoImplicit false

namespace ImProxy

open Concurrent Transition

variable {g : Gateway} {s s' : State} {t : Thread} {a : Action}

def Action.actor : Action → Thread
  | .read x _ => .loop x
  | .inactive x => .loop x
  | .readerIdle x => .loop x
  | .exceptionCaught x => .loop x
  | .peerClose x => .loop x
  | .call n _ => .server n
  | .task y _ => .loop y
  | .run t _ => t

/-- A thread that has done nothing: it is idle, has posted nothing and, as an event loop, has
received nothing. -/
structure Bystander (s : State) (t : Thread) : Prop where

  frame : s.frame t = .idle

  tasks : ∀ y, (s.channel y).tasks t = []

  received : ∀ x, t = .loop x → (s.channel x).received = []

theorem frame_of_actor_ne (h : Step g s a s') (ha : a.actor ≠ t) : s'.frame t = s.frame t := by
  cases h with
  | read _ _ | inactive _ _ | readerIdle _ _ _ | exceptionCaught _ | call _ =>
    exact State.setFrame_frame_of_ne _ _ (Ne.symm ha)
  | peerClose _ | task _ _ => rfl
  | run _ =>
    exact (State.setFrame_frame_of_ne _ _ (Ne.symm ha)).trans (congrFun (s.exec_frame ..) _)

theorem Bystander.step (hs : Bystander s t) (h : Step g s a s') (ha : a.actor ≠ t) :
    Bystander s' t := by
  constructor
  · exact (frame_of_actor_ne h ha).trans hs.frame
  · intro y
    have hc := h.onChannel y
    generalize s'.channel y = c at hc
    cases hc with
    | still _ | read _ | event _ _ => exact hs.tasks y
    | @task u k ks _ hk =>
      have hu : t ≠ u := by
        rintro rfl
        simp [hs.tasks] at hk
      exact (Function.update_of_ne hu _ _).trans (hs.tasks y)
    | run _ =>
      refine List.eq_nil_iff_forall_not_mem.mpr fun k hk => ?_
      rcases tasks_exec hk with hk | ⟨rfl, -⟩
      · simp [hs.tasks] at hk
      · exact ha rfl
  · rintro x rfl
    have hc := h.onChannel x
    generalize s'.channel x = c at hc
    cases hc with
    | still _ | event _ _ => exact hs.received x rfl
    | read _ => exact absurd rfl ha
    | task _ _ | run _ => simpa using hs.received x rfl

theorem bystander_run {as : List Action} (h : (gateway g).run as (.init g) = some s)
    (ht : ∀ a ∈ as, a.actor ≠ t) : Bystander s t := by
  refine (System.path_iff_run.mpr h).history
    (P := fun as s => (∀ a ∈ as, a.actor ≠ t) → Bystander s t)
    (fun _ => ⟨rfl, fun _ => rfl, fun _ _ => rfl⟩) ?_ ht
  intro as a s u _ ih _ hs hall
  simp only [List.mem_append, List.mem_singleton] at hall
  exact (ih fun b hb => hall b (.inl hb)).step (gateway_step.mp hs) (hall a (.inr rfl))

end ImProxy
