import ImProxy.Invariant.Turn

/-! # Unrelated clients

Turns of unrelated clients, on different channels and with different client ids, lead to
the same state in either order, and so do runs that differ in the order of such turns.
This includes turns that evict the same channel, or that evict each other's.
-/

set_option autoImplicit false

namespace ImProxy

open Concurrent Transition

variable {g : Gateway} {s s' u v : State} {t : Thread} {x y z : ChannelId} {a b : Action}
  {as bs : List Action} {c : String} {d e : Descriptor}

/-- The channels of an action: its own, and for a task that of the event loop which has posted
it. -/
def Action.channels : Action → Set ChannelId
  | .task y (.loop x) => {y, x}
  | a => {x | a.actor = .loop x}

/-- Actions other than a PUBLISH on different channels whose recorded and named client ids are
different. -/
structure Unrelated (s : State) (a b : Action) : Prop where

  quiet : a.Quiet ∧ b.Quiet

  channels : Disjoint a.channels b.channels

  clientIDs : Disjoint (a.clientIDs s) (b.clientIDs s)

theorem mem_channels_task (h : x ∉ (Action.task y t).channels) : x ≠ y ∧ t ≠ .loop x := by
  cases t with
  | loop z =>
    refine ⟨fun hx => h (.inl hx), fun hz => h (.inr ?_)⟩
    exact (Thread.loop.inj hz).symm
  | server n => exact ⟨fun hx => h (congrArg Thread.loop hx.symm), nofun⟩

theorem mem_channels (hx : a.actor = .loop x) : x ∈ a.channels := by
  cases a with
  | task y t =>
    cases hx
    cases t with
    | loop z => exact .inl rfl
    | server n => rfl
  | _ => exact hx

namespace Unrelated

theorem symm (h : Unrelated s a b) : Unrelated s b a :=
  ⟨h.quiet.symm, h.channels.symm, h.clientIDs.symm⟩

theorem disjoint (h : Unrelated s a b) : Disjoint (a.region s) (b.region s) := by
  have hab : ∀ {x}, x ∈ a.channels → x ∉ b.channels := fun ha hb =>
    Set.disjoint_left.mp h.channels ha hb
  rcases h.quiet.1.cases with ⟨y, t, rfl⟩ | ⟨x, hx, -, -, hreg⟩
  · rcases h.quiet.2.cases with ⟨z, v, rfl⟩ | ⟨x, hx, -, -, hreg⟩
    · exact disjoint_taskRegion (mem_channels_task (hab (mem_channels rfl))).1
    · rw [hreg]
      obtain ⟨hy, ht⟩ := mem_channels_task fun hm => hab hm (mem_channels hx)
      exact (disjoint_region_task hy ht).symm
  · rcases h.quiet.2.cases with ⟨z, v, rfl⟩ | ⟨y, hy, -, -, hreg'⟩
    · rw [hreg]
      obtain ⟨hz, hv⟩ := mem_channels_task (hab (mem_channels hx))
      exact disjoint_region_task hz hv
    · rw [hreg, hreg']
      refine disjoint_region ?_ h.clientIDs
      rintro rfl
      exact hab (mem_channels hx) (mem_channels hy)

end Unrelated

theorem Action.region_congr (hb : b.Quiet) (h : memory.Agree (b.region s) s v) :
    b.region v = b.region s := by
  rcases hb.cases with ⟨y, t, rfl⟩ | ⟨x, hx, -, -, hreg⟩
  · rfl
  · rw [hreg] at h
    have hc : (v.channel x).attributes = (s.channel x).attributes :=
      (congrArg Channel.attributes (agree_region.mp h).2.1.symm :)
    rw [hreg, hreg]
    refine congrArg _ ?_
    cases b with
    | task | call | run => rfl
    | exceptionCaught | peerClose => rfl
    | read | inactive | readerIdle =>
      cases hx
      simp only [Action.clientIDs, State.recorded, hc]

theorem Unrelated.swap (h : Unrelated s a b) (hr : (gateway g).Reachable s)
    (hu : Runs (Turn g) s [a, b] u) : Runs (Turn g) s [b, a] u := by
  obtain ⟨v, hv, w, hw, rfl⟩ := hu
  have ha := hv.local hr h.quiet.1
  have hb := hw.local (hv.reachable hr) h.quiet.2
  rw [Action.region_congr h.quiet.2 (ha.frame.of_disjoint h.disjoint)] at hb
  obtain ⟨v', hv', hw'⟩ := ha.swap h.disjoint hb
  exact ⟨v', hv', u, hw', rfl⟩

theorem Unrelated.runs_iff (h : Unrelated s a b) (hr : (gateway g).Reachable s) (u : State) :
    Runs (Turn g) s [a, b] u ↔ Runs (Turn g) s [b, a] u :=
  ⟨h.swap hr, h.symm.swap hr⟩

/-- Two turns of unrelated clients that can start can be taken in either order, with one
outcome. -/
theorem Unrelated.outcome (h : Unrelated s a b) (hr : (gateway g).Reachable s)
    (ha : ∃ u, Step g s a u) (hb : ∃ u, Step g s b u) :
    ∃ s', ∀ u, Runs (Turn g) s [a, b] u ↔ u = s' := by
  obtain ⟨u, hu⟩ := turn_of_step hr h.quiet.1 ha.choose_spec
  obtain ⟨v, hv⟩ := turn_of_step hr h.quiet.2 hb.choose_spec
  obtain ⟨w, hw, -⟩ := (hu.local hr h.quiet.1).diamond h.disjoint (hv.local hr h.quiet.2)
  refine ⟨w, fun w' => ?_⟩
  constructor
  · rintro ⟨u', hu', w'', hw', rfl⟩
    cases hu.unique hu' hr h.quiet.1
    exact hw'.unique hw (hu.reachable hr) h.quiet.2
  · rintro rfl
    exact ⟨u, hu, w', hw, rfl⟩

def Posts (s u : State) (z : ChannelId) : Prop :=
  ∃ t, ((s.channel z).tasks t).length < ((u.channel z).tasks t).length

theorem closed_of_published (hr : (gateway g).Reachable s) (hi : s.frame (.loop d.channel) = .idle)
    (hd : Published s d) (he : Published s e) (hc : d.channel = e.channel)
    (hne : d.clientID ≠ e.clientID) : (s.channel d.channel).isOpen = false := by
  by_contra ho
  have hl := (reachable_lifecycle hr d.channel).single (hi ▸ rfl) (by simpa using ho)
  exact hne (congrArg Descriptor.clientID (hd.eq he hc hl))

/-- Two turns of unrelated clients post to the same channel only if it is closed. -/
theorem Unrelated.closed (h : Unrelated s a b) (hr : (gateway g).Reachable s)
    (hu : Turn g s a u) (hv : Turn g s b v) (hi : s.frame (.loop z) = .idle) (hpu : Posts s u z)
    (hpv : Posts s v z) : (s.channel z).isOpen = false := by
  obtain ⟨t, ht⟩ := hpu
  obtain ⟨t', ht'⟩ := hpv
  obtain ⟨d, hd, rfl, hdc⟩ := hu.posts hr h.quiet.1 ht
  obtain ⟨e, he, hed, hec⟩ := hv.posts hr h.quiet.2 ht'
  refine closed_of_published hr hi hd he hed.symm fun hde => ?_
  exact Set.disjoint_left.mp h.clientIDs hdc (hde ▸ hec)

/-! ## The property -/

/-- Unrelated clients commute: two of their turns that can start have one outcome, the same in
either order, and runs that differ in the order of such turns have the same outcomes. Where two
of them post to the same channel between its handlers, it is closed, so the order in which it
runs their tasks is of no consequence. -/
theorem unrelated_clients_commute (hr : (gateway g).Reachable s) :
    (∀ a b, Unrelated s a b → (∃ u, Step g s a u) → (∃ u, Step g s b u) →
      ∃ s', ∀ u, (Runs (Turn g) s [a, b] u ↔ u = s') ∧ (Runs (Turn g) s [b, a] u ↔ u = s')) ∧
    (∀ as bs, Exchange (Turn g) Unrelated s as bs →
      ∀ u, Runs (Turn g) s as u ↔ Runs (Turn g) s bs u) ∧
    ∀ a b u v z, Unrelated s a b → Turn g s a u → Turn g s b v → s.frame (.loop z) = .idle →
      Posts s u z → Posts s v z → (s.channel z).isOpen = false := by
  refine ⟨fun a b h ha hb => ?_, fun as bs h => ?_, fun a b u v z h hu hv hi hpu hpv => ?_⟩
  · obtain ⟨s', hs⟩ := h.outcome hr ha hb
    exact ⟨s', fun u => ⟨hs u, (h.runs_iff hr u).symm.trans (hs u)⟩⟩
  · refine h.runs_iff fun as t a b ht hu => hu.runs_iff ?_
    exact ht.invariant hr fun _ _ _ hs h => h.reachable hs
  · exact h.closed hr hu hv hi hpu hpv

def connectedTwice : List Action :=
  join 0 "a" ++ .read 0 (.connect (connectAs "b")) :: proceed 0 11

theorem unrelated_takeOvers : Unrelated (after connectedTwice)
    (.read 1 (.connect (connectAs "a"))) (.read 2 (.connect (connectAs "b"))) where
  quiet := ⟨trivial, trivial⟩
  channels := by
    rw [Set.disjoint_left]
    rintro x (hx : Thread.loop 1 = .loop x) (hy : Thread.loop 2 = .loop x)
    exact absurd (hx.trans hy.symm) (by decide)
  clientIDs := by
    have hx : ((after connectedTwice).channel 1).attributes.clientID = none := by decide
    have hy : ((after connectedTwice).channel 2).attributes.clientID = none := by decide
    simp [Action.clientIDs, State.recorded, Inbound.named, hx, hy, connectAs]

theorem turn_after (ha : a.actor = .loop x) (ht : a.thread = none)
    (hs : ((gateway ascii).run as (.init ascii)).isSome = true)
    (hstep : ((gateway ascii).step a (after as)).isSome = true)
    (hrun : ((gateway ascii).run (as ++ [a]) (.init ascii)).isSome = true)
    (hp : ((gateway ascii).runWhere (fun _ b => b.thread = some (.loop x)) bs
      (after (as ++ [a]))).isSome = true)
    (hi : ((after (as ++ [a] ++ bs)).frame (.loop x)).isIdle = true) :
    Turn ascii (after as) a (after (as ++ [a] ++ bs)) :=
  ⟨ht, after (as ++ [a]), bs, step_after hs hstep, ha ▸ path_after hrun hp,
    ha ▸ Frame.isIdle_iff.mp hi⟩

theorem unrelated_clients_commute_takeOvers :
    (∃ s', ∀ u,
      (Runs (Turn ascii) (after connectedTwice)
        [.read 1 (.connect (connectAs "a")), .read 2 (.connect (connectAs "b"))] u ↔ u = s') ∧
      (Runs (Turn ascii) (after connectedTwice)
        [.read 2 (.connect (connectAs "b")), .read 1 (.connect (connectAs "a"))] u ↔ u = s')) ∧
    ((after connectedTwice).channel 0).isOpen = false := by
  have hs : ((gateway ascii).run connectedTwice (.init ascii)).isSome = true := by decide
  obtain ⟨hcomm, -, hclosed⟩ := unrelated_clients_commute (reachable_after hs)
  have hu : Turn ascii _ (.read 1 (.connect (connectAs "a"))) (after (connectedTwice ++
      [.read 1 (.connect (connectAs "a"))] ++ proceed 1 16)) :=
    turn_after rfl rfl hs (by decide +kernel) (by decide +kernel) (by decide +kernel)
      (by decide +kernel)
  have hv : Turn ascii _ (.read 2 (.connect (connectAs "b"))) (after (connectedTwice ++
      [.read 2 (.connect (connectAs "b"))] ++ proceed 2 16)) :=
    turn_after rfl rfl hs (by decide +kernel) (by decide +kernel) (by decide +kernel)
      (by decide +kernel)
  constructor
  · obtain ⟨-, u, -, hu, -⟩ := hu
    obtain ⟨-, v, -, hv, -⟩ := hv
    exact hcomm _ _ unrelated_takeOvers ⟨u, hu⟩ ⟨v, hv⟩
  · have hi : ((after connectedTwice).frame (.loop 0)).isIdle = true := by decide
    exact hclosed _ _ _ _ 0 unrelated_takeOvers hu hv (Frame.isIdle_iff.mp hi)
      ⟨.loop 1, by decide +kernel⟩ ⟨.loop 2, by decide +kernel⟩

end ImProxy
