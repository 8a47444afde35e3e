import ImProxy.Gateway.Scenario
import ImProxy.Invariant.Registry

/-! # Entries and channels in one step

An entry of the registry is removed by the event loop of its own channel and replaced
by the put of a CONNECT for its client id. A descriptor is published by its put, no step
opens a channel, and what is posted to an event loop stays posted until it runs.
-/

set_option autoImplicit false

namespace ImProxy

open Concurrent Transition

variable {g : Gateway} {s s' : State} {t : Thread} {choice : Choice} {f : Frame} {i : Instr}
  {x y : ChannelId} {a : Action} {c : String} {d : Descriptor}

/-- An operation on the registry keeps an entry, or removes it on its own event loop, or is the
put of a CONNECT for its client id. -/
theorem entry_run (hr : (gateway g).Reachable s)
    (hn : next g s t choice (s.frame t) = some (i, f))
    (hd : s.connectionDescriptors.get c = some d) :
    (s.exec t i).connectionDescriptors.get c = some d ∨
      (s.exec t i).connectionDescriptors.get c = none ∧ t = .loop d.channel ∨
      ∃ e, (s.exec t i).connectionDescriptors.get c = some e ∧ t = .loop e.channel ∧
        s.puts (.run t choice) = some e ∧ e.clientID = c := by
  have ht := (next_of (reachable_owned hr t) hn).1
  rw [State.exec_connectionDescriptors]
  cases i with
  | put e =>
    have hp : s.puts (.run t choice) = some e := by
      simp only [State.puts, State.executes]
      generalize s.frame t = f₀ at hn
      cases next_statement hn <;> rfl
    rw [Map.get_put]
    split_ifs with hc
    · exact .inr (.inr ⟨e, rfl, by simpa using ht, hp, hc.symm⟩)
    · exact .inl hd
  | remove e =>
    rw [Map.get_removeIf]
    split_ifs with hc
    · cases he : e.equals d with
      | false => simp [hd, he, Option.filter]
      | true =>
        rw [Instr.remove_of, (Descriptor.equals_iff.mp he).2] at ht
        simp [hd, he, Option.filter, ht]
    · exact .inl hd
  | _ => exact .inl hd

theorem entry_step (hr : (gateway g).Reachable s) (h : Step g s a s')
    (hd : s.connectionDescriptors.get c = some d) :
    s'.connectionDescriptors.get c = some d ∨
      s'.connectionDescriptors.get c = none ∧ a.thread = some (.loop d.channel) ∨
      ∃ e, s'.connectionDescriptors.get c = some e ∧ a.thread = some (.loop e.channel) ∧
        s.puts a = some e ∧ e.clientID = c := by
  cases h with
  | run hn =>
    rcases entry_run hr hn hd with h | ⟨h, rfl⟩ | ⟨e, he, rfl, hp⟩
    · exact .inl h
    · exact .inr (.inl ⟨h, rfl⟩)
    · exact .inr (.inr ⟨e, he, rfl, hp⟩)
  | _ => exact .inl hd

/-- A descriptor is published by its put. -/
theorem published_new (hr : (gateway g).Reachable s) (h : Step g s a s') (hd : Published s' d) :
    Published s d ∨ s.puts a = some d := by
  obtain ⟨m, hm, he⟩ := hd
  rcases published_cases h d.channel with hp | ⟨choice, msg, e, previous, rfl, hf, hp, hp'⟩
  · exact .inl ⟨m, hp ▸ hm, he⟩
  · rw [hp'] at hm
    obtain ⟨hlast, hlen, -, -, hd'⟩ := (reachable_lifecycle hr d.channel).connecting _ _ _ hf
    have hlt := (List.getElem?_eq_some_iff.mp hm).1
    by_cases hs : d.serial = e.serial
    · rw [List.getLast?_eq_getElem?, hlen, Nat.add_sub_cancel, ← hs, hm] at hlast
      cases hlast
      refine .inr ?_
      simp only [State.puts, State.executes, hf]
      rw [he, hd', hs]
    · refine .inl ⟨m, ?_, he⟩
      rw [hp, List.getElem?_dropLast, if_pos (by omega)]
      exact hm

theorem isOpen_of_step (h : Step g s a s') (ho : (s'.channel y).isOpen = true) :
    (s.channel y).isOpen = true := by
  have hc := h.onChannel y
  generalize s'.channel y = c at hc ho
  cases hc with
  | still _ | read _ => exact ho
  | event _ hi => exact hi ho
  | @task t k ks _ _ =>
    cases k with
    | close => cases ho
    | write w => simpa using ho
  | run hn => exact State.isOpen_of_exec ho

theorem channel_tasks_step (h : Step g s a s') {k : Task} (hk : k ∈ (s.channel y).tasks t) :
    k ∈ (s'.channel y).tasks t ∨ a = .task y t ∧ s'.channel y = { (s.channel y).run k with
      tasks := (s'.channel y).tasks } := by
  have hc := h.onChannel y
  generalize s'.channel y = c at hc
  cases hc with
  | still _ | read _ | event _ _ => exact .inl hk
  | @task u l ks _ hl =>
    simp only [Function.update_apply]
    split_ifs with ht
    · subst ht
      rw [hl, List.mem_cons] at hk
      rcases hk with rfl | hk
      · exact .inr ⟨rfl, rfl⟩
      · exact .inl hk
    · exact .inl hk
  | @run u choice i f hn =>
    refine .inl ?_
    rw [State.exec_tasks]
    cases i with
    | write z q => simp only; split_ifs <;> simp [hk]
    | close z => simp only; split_ifs <;> simp [hk]
    | _ => exact hk

theorem close_posted_path {as : List Action} (h : (gateway g).Path System.always s as s')
    (hk : Task.close ∈ (s.channel y).tasks t) :
    Task.close ∈ (s'.channel y).tasks t ∨ (s'.channel y).isOpen = false := by
  refine h.invariant (P := fun s' => Task.close ∈ (s'.channel y).tasks t ∨
    (s'.channel y).isOpen = false) (.inl hk) ?_
  rintro a u v (hu | hu) - hs
  · rcases channel_tasks_step (gateway_step.mp hs) hu with hv | ⟨-, hv⟩
    · exact .inl hv
    · right
      rw [hv]
      rfl
  · right
    by_contra hv
    have := isOpen_of_step (gateway_step.mp hs) (by simpa using hv)
    rw [hu] at this
    cases this

end ImProxy
