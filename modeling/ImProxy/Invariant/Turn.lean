import ImProxy.Invariant.Footprint
import ImProxy.Transition.Exchange

/-! # Turns

A turn is an action together with the statements of its thread until the handler it has
started is over. The turns of a channel, except for a PUBLISH, have exactly one outcome,
and are steps within a region: that of the channel with the client ids recorded there or
named by the packet.
-/

set_option autoImplicit false

namespace ImProxy

open Concurrent Transition

variable {g : Gateway} {s s' u v : State} {t : Thread} {choice : Choice} {f f' : Frame} {i : Instr}
  {x y : ChannelId} {a b : Action} {as bs : List Action} {c : Channel} {K : Set String}

/-- An action of a thread between two handlers and, without a step of another thread, the
handler that it starts. -/
def Turn (g : Gateway) (s : State) (a : Action) (s' : State) : Prop :=
  a.thread = none ∧ ∃ u as, Step g s a u ∧
    (gateway g).Path (fun _ b => b.thread = some a.actor) u as s' ∧ s'.frame a.actor = .idle

/-- The actions of a channel other than to receive a PUBLISH. -/
def Action.Quiet : Action → Prop
  | .read _ (.publish _) => False
  | .call _ _ => False
  | .run _ _ => False
  | _ => True

def State.recorded (s : State) (x : ChannelId) : Set String :=
  {c | (s.channel x).attributes.clientID = some c}

def Inbound.named : Inbound → Set String
  | .connect msg => {c | msg.clientIdentifier = some c}
  | _ => ∅

def Action.clientIDs (s : State) : Action → Set String
  | .read x p => s.recorded x ∪ p.named
  | .inactive x => s.recorded x
  | .readerIdle x => s.recorded x
  | _ => ∅

/-- What a turn reads and changes. -/
def Action.region (s : State) (a : Action) : Set Location :=
  match a with
  | .task y t => taskRegion y t
  | a => {l | ∃ x, a.actor = .loop x ∧ l ∈ ImProxy.region x (a.clientIDs s)}

theorem Action.Quiet.cases (h : a.Quiet) : (∃ y t, a = .task y t) ∨
    ∃ x, a.actor = .loop x ∧ (∀ y t, a ≠ .task y t) ∧ a.thread = none ∧
      ∀ s, a.region s = ImProxy.region x (a.clientIDs s) := by
  have channel : ∀ x, a.actor = .loop x → (∀ y t, a ≠ .task y t) → ∀ s,
      a.region s = ImProxy.region x (a.clientIDs s) := by
    intro x hx ht s
    have hr : a.region s = {l | ∃ z, a.actor = .loop z ∧ l ∈ ImProxy.region z (a.clientIDs s)} := by
      cases a with
      | task y t => exact absurd rfl (ht y t)
      | _ => rfl
    rw [hr, hx]
    simp
  cases a with
  | task y t => exact .inl ⟨y, t, rfl⟩
  | call | run => exact h.elim
  | read x | inactive x | readerIdle x | exceptionCaught x | peerClose x =>
    exact .inr ⟨x, rfl, fun _ _ => nofun, rfl, channel x rfl fun _ _ => nofun⟩

/-! ## Where a handler knows its client ids -/

theorem read_knows (x : ChannelId) (p : Inbound) (hp : ∀ msg, p ≠ .publish msg) :
    (channelRead g x (s.channel x) p).Knows (s.recorded x ∪ p.named) := by
  cases p with
  | publish msg => exact absurd rfl (hp msg)
  | connect msg =>
    simp only [channelRead, processConnect]
    split
    · trivial
    · next hm =>
      obtain ⟨c, hc, -⟩ := (refusal_eq_none.mp hm).clientIdentifier
      refine .inr ?_
      simp [Inbound.named, newDescriptor, MqttConnectMessage.clientId, hc]
  | disconnect =>
    simp only [channelRead, processDisconnect]
    split
    · trivial
    · next hc => exact .inl hc
  | _ => trivial

theorem inactive_knows (x : ChannelId) :
    (channelInactive x (s.channel x)).Knows (s.recorded x) := by
  unfold channelInactive
  split
  · trivial
  · next hc =>
    split_ifs
    · trivial
    · exact hc

theorem event_knows (h : Step g s a u) (ha : a.Quiet) (ht : ∀ y t, a ≠ .task y t)
    (hx : a.actor = .loop x) : (u.frame (.loop x)).Knows (a.clientIDs s) := by
  cases h with
  | @read z p hf _ =>
    cases hx
    rw [State.start_frame_self]
    refine read_knows x p fun msg hp => ?_
    subst hp
    exact ha
  | inactive _ _ | readerIdle _ _ _ =>
    cases hx
    rw [State.start_frame_self]
    exact inactive_knows x
  | exceptionCaught _ =>
    cases hx
    rw [State.setFrame_frame_self]
    trivial
  | peerClose hf =>
    cases hx
    rw [State.update_frame, hf]
    trivial
  | call _ => exact ha.elim
  | task _ _ => exact absurd rfl (ht _ _)
  | run _ => exact ha.elim

/-! ## Handlers come to an end -/

def Frame.rank : Frame → ℕ
  | .idle => 0
  | .refuse _ _ => 2
  | .connect _ _ (.rollbackClose _) => 23
  | .connect _ _ (.rollbackRemove _) => 22
  | .connect _ _ l => 60 - 3 * l.stage
  | .disconnect _ (.get _) => 3
  | .disconnect _ (.abort _) => 2
  | .connectionLost _ _ => 2
  | _ => 1

theorem next_rank (hf : f.Knows K) (h : next g s t choice f = some (i, f')) :
    f'.rank < f.rank := by
  cases next_statement h <;>
    first | exact hf.elim | simp [Frame.rank, ConnectLine.stage]

theorem next_isSome (hf : f.Knows K) (hi : f ≠ .idle) :
    ∃ i f', next g s t choice f = some (i, f') := by
  cases f with
  | idle => exact absurd rfl hi
  | pubAck | push | notifyAll | closeWithMessage | closeConnection => exact hf.elim
  | _ => exact ⟨_, _, rfl⟩

/-- A handler that knows its client ids and is under way in a reachable state. -/
structure Underway (g : Gateway) (x : ChannelId) (K : Set String) (s : State) : Prop where

  reachable : (gateway g).Reachable s

  knows : (s.frame (.loop x)).Knows K

namespace Underway

theorem next_knows (h : Underway g x K s)
    (hn : next g s (.loop x) choice (s.frame (.loop x)) = some (i, f)) :
    i.Knows K ∧ f.Knows K :=
  ImProxy.next_knows (fun c d hd => ((reachable_registry h.reachable).entries c d hd).1) h.knows hn

theorem step (h : Underway g x K s) (ha : a.thread = some (.loop x))
    (hs : (gateway g).step a s = some s') : Underway g x K s' := by
  refine ⟨h.reachable.step hs, ?_⟩
  obtain ⟨choice, rfl⟩ := Action.thread_eq_some.mp ha
  cases gateway_step.mp hs with
  | run hn =>
    rw [State.setFrame_frame_self]
    exact (h.next_knows hn).2

theorem local_step (h : Underway g x K s) (ha : a.thread = some (.loop x))
    (hs : (gateway g).step a s = some s') :
    memory.Local (fun s s' => Step g s a s') (region x K) s s' := by
  obtain ⟨choice, rfl⟩ := Action.thread_eq_some.mp ha
  cases gateway_step.mp hs with
  | run hn => exact local_run (reachable_owned h.reachable _) h.knows hn (h.next_knows hn).1

theorem ends (h : Underway g x K s) : ∃ as s',
    (gateway g).Path (fun _ b => b.thread = some (.loop x)) s as s' ∧
      s'.frame (.loop x) = .idle := by
  induction hn : (s.frame (.loop x)).rank using Nat.strong_induction_on generalizing s with
  | h n ih =>
    by_cases hi : s.frame (.loop x) = .idle
    · exact ⟨[], s, .nil, hi⟩
    · obtain ⟨i, f, hf⟩ : ∃ i f, next g s (.loop x) .proceed (s.frame (.loop x)) = some (i, f) :=
        next_isSome h.knows hi
      have hs : (gateway g).step (.run (.loop x) .proceed) s = some _ :=
        gateway_step.mpr (.run hf)
      have hr : (((s.exec (.loop x) i).setFrame (.loop x) f).frame (.loop x)).rank < n := by
        rw [State.setFrame_frame_self, ← hn]
        exact next_rank h.knows hf
      obtain ⟨as, s', hp, he⟩ := ih _ hr (h.step rfl hs) rfl
      exact ⟨_, s', .cons rfl hs hp, he⟩

theorem local_path (h : Underway g x K s)
    (hp : (gateway g).Path (fun _ b => b.thread = some (.loop x)) s as s') :
    memory.Local
      (fun s s' => ∃ bs, (gateway g).Path (fun _ b => b.thread = some (.loop x)) s bs s')
      (region x K) s s' := by
  refine (hp.invariant (P := fun v => Underway g x K v ∧ memory.Local
    (fun s s' => ∃ bs, (gateway g).Path (fun _ b => b.thread = some (.loop x)) s bs s')
      (region x K) s v) ⟨h, Memory.Confined.id.local_of fun _ _ => ⟨[], .nil⟩⟩ ?_).2
  rintro a u v ⟨hu, hl⟩ ha hv
  refine ⟨hu.step ha hv, (hl.comp (hu.local_step ha hv)).mono ?_⟩
  rintro s s' ⟨w, ⟨bs, hw⟩, hs⟩
  exact ⟨bs ++ [a], .snoc hw ha (gateway_step.mpr hs)⟩

theorem posts (h : Underway g x K s)
    (hp : (gateway g).Path (fun _ b => b.thread = some (.loop x)) s as s') (y : ChannelId) :
    (s'.channel y).tasks (.loop x) = (s.channel y).tasks (.loop x) ∨
      y ≠ x ∧ ∃ d, Published s' d ∧ d.channel = y ∧ d.clientID ∈ K := by
  by_cases hy : y = x
  · subst hy
    have hs := (reachable_registry h.reachable).own y
    exact .inl (((reachable_registry (h.reachable.path hp)).own y).trans hs.symm)
  refine (hp.invariant (P := fun v => Underway g x K v ∧
    ((v.channel y).tasks (.loop x) = (s.channel y).tasks (.loop x) ∨
      y ≠ x ∧ ∃ d, Published v d ∧ d.channel = y ∧ d.clientID ∈ K)) ⟨h, .inl rfl⟩ ?_).2
  rintro a u v ⟨hu, hd⟩ ha hv
  refine ⟨hu.step ha hv, ?_⟩
  have hstep := gateway_step.mp hv
  rcases hd with hq | ⟨-, d, hd, hc⟩
  · obtain ⟨choice, rfl⟩ := Action.thread_eq_some.mp ha
    cases hstep with
    | @run _ _ i f hn =>
      by_cases hi : i.target = some y
      · obtain ⟨d, hd, hc⟩ := next_target (reachable_owned hu.reachable _) hu.knows
          ((reachable_registry hu.reachable).refs _) hn hi hy
        exact .inr ⟨hy, d, hd.step (.run hn), hc⟩
      · refine .inl (Eq.trans ?_ hq)
        rw [State.setFrame_channel, tasks_exec_of_target hi]
  · exact .inr ⟨hy, d, hd.step hstep, hc⟩

end Underway

theorem path_idle (hi : s.frame t = .idle)
    (hp : (gateway g).Path (fun _ b => b.thread = some t) s as s') : s' = s := by
  refine hp.invariant (P := fun v => v = s) rfl ?_
  rintro a u v rfl ha hv
  obtain ⟨choice, rfl⟩ := Action.thread_eq_some.mp ha
  cases gateway_step.mp hv with
  | run hn =>
    rw [hi] at hn
    cases hn

theorem Underway.unique (h : Underway g x K s)
    (hp : (gateway g).Path (fun _ b => b.thread = some (.loop x)) s as u)
    (hu : u.frame (.loop x) = .idle)
    (hq : (gateway g).Path (fun _ b => b.thread = some (.loop x)) s bs v)
    (hv : v.frame (.loop x) = .idle) : u = v := by
  induction as generalizing s bs with
  | nil =>
    cases hp.functional (.nil : (gateway g).Path System.always s [] s)
    exact (path_idle hu hq).symm
  | cons a as ih =>
    obtain ⟨s₁, ha, hs, hp'⟩ := hp.uncons
    cases bs with
    | nil =>
      cases hq.functional (.nil : (gateway g).Path System.always s [] s)
      exact path_idle hv hp
    | cons b bs =>
      obtain ⟨s₂, hb, hs', hq'⟩ := hq.uncons
      have he : s₁ = s₂ := by
        obtain ⟨choice, rfl⟩ := Action.thread_eq_some.mp ha
        obtain ⟨choice', rfl⟩ := Action.thread_eq_some.mp hb
        have hc : next g s (.loop x) choice' (s.frame (.loop x)) =
            next g s (.loop x) choice (s.frame (.loop x)) := next_choice h.knows choice'
        cases gateway_step.mp hs with
        | run hn =>
          cases gateway_step.mp hs' with
          | run hn' =>
            cases hn.symm.trans (hc.symm.trans hn')
            rfl
      subst he
      exact ih (h.step ha hs) hp' hq'

/-! ## Turns of a channel -/

theorem Turn.reachable (h : Turn g s a s') (hr : (gateway g).Reachable s) :
    (gateway g).Reachable s' := by
  obtain ⟨-, u, as, hu, hp, -⟩ := h
  exact (hr.step (gateway_step.mpr hu)).path hp

theorem underway_of_event (hr : (gateway g).Reachable s) (h : Step g s a u) (ha : a.Quiet)
    (ht : ∀ y t, a ≠ .task y t) (hx : a.actor = .loop x) : Underway g x (a.clientIDs s) u :=
  ⟨hr.step (gateway_step.mpr h), event_knows h ha ht hx⟩

theorem Turn.of_task : Turn g s (.task y t) s' ↔ Step g s (.task y t) s' := by
  have idle : ∀ {u}, Step g s (.task y t) u → u.frame (.loop y) = .idle := by
    intro u h
    cases h with
    | task hf _ => exact hf
  constructor
  · rintro ⟨-, u, as, hu, hp, -⟩
    exact path_idle (idle hu) hp ▸ hu
  · intro h
    exact ⟨rfl, s', [], h, .nil, idle h⟩

/-- A turn of a channel reads and changes nothing outside of its region. -/
theorem Turn.local (h : Turn g s a s') (hr : (gateway g).Reachable s) (ha : a.Quiet) :
    memory.Local (fun s s' => Turn g s a s') (a.region s) s s' := by
  rcases ha.cases with ⟨y, t, rfl⟩ | ⟨x, hx, ht, hth, hreg⟩
  · exact (local_task (Turn.of_task.mp h)).mono fun _ _ => Turn.of_task.mpr
  · obtain ⟨-, u, as, hu, hp, hi⟩ := h
    rw [hx] at hp hi
    rw [hreg]
    have hw := underway_of_event hr hu ha ht hx
    refine (((local_event hu hx ht hth).comp (hw.local_path hp)).and_end (P := fun v =>
      v.frame (.loop x) = .idle) fun v hv => ?_).mono ?_
    · exact (agree_region.mp hv).2.2.2.symm.trans hi
    · rintro s s' ⟨⟨u, hu, bs, hp⟩, hi⟩
      exact ⟨hth, u, bs, hu, hx ▸ hp, hx ▸ hi⟩

theorem Turn.unique (h : Turn g s a u) (h' : Turn g s a v) (hr : (gateway g).Reachable s)
    (ha : a.Quiet) : u = v := by
  have step : ∀ {s₁ s₂}, Step g s a s₁ → Step g s a s₂ → s₁ = s₂ := fun h₁ h₂ =>
    Option.some.inj ((step_iff.mpr h₁).symm.trans (step_iff.mpr h₂))
  rcases ha.cases with ⟨y, t, rfl⟩ | ⟨x, hx, ht, -, -⟩
  · exact step (Turn.of_task.mp h) (Turn.of_task.mp h')
  · obtain ⟨-, s₁, as, hs₁, hp, hu⟩ := h
    obtain ⟨-, s₂, bs, hs₂, hq, hv⟩ := h'
    cases step hs₁ hs₂
    rw [hx] at hp hu hq hv
    exact (underway_of_event hr hs₁ ha ht hx).unique hp hu hq hv

theorem Published.of_own {d : Descriptor} (h : Published s' d)
    (ho : (s.channel d.channel).own = (s'.channel d.channel).own)
    (hf : s.frame (.loop d.channel) = s'.frame (.loop d.channel)) : Published s d := by
  have hc : (s.channel d.channel).connects = (s'.channel d.channel).connects :=
    (congrArg Channel.connects ho :)
  have hp : s.published d.channel = s'.published d.channel := by
    simp only [State.published, Channel.past, hc, hf]
  obtain ⟨msg, hm, he⟩ := h
  exact ⟨msg, hp ▸ hm, he⟩

/-- What a turn posts goes to a channel that is registered under a client id of the turn. -/
theorem Turn.posts (h : Turn g s a s') (hr : (gateway g).Reachable s) (ha : a.Quiet)
    (hq : ((s.channel y).tasks t).length < ((s'.channel y).tasks t).length) :
    ∃ d, Published s d ∧ d.channel = y ∧ d.clientID ∈ a.clientIDs s := by
  have hloc := h.local hr ha
  rcases ha.cases with ⟨z, v, rfl⟩ | ⟨x, hx, ht, hth, hreg⟩
  · have hle := (tasks_isSuffix (Turn.of_task.mp h) nofun y t).length_le
    omega
  · obtain ⟨-, u, as, hu, hp, -⟩ := h
    rw [hx] at hp
    rw [hreg] at hloc
    have hle := (tasks_isSuffix hu (fun _ _ he => by cases he; cases hth) y t).length_le
    have htx : t = .loop x := by
      by_contra hne
      have hs := Content.queue.inj (hloc.frame (.queue y t) hne)
      rw [hs] at hq
      exact lt_irrefl _ hq
    subst htx
    rcases (underway_of_event hr hu ha ht hx).posts hp y with he | ⟨hy, d, hd, rfl, hc⟩
    · rw [he] at hq
      omega
    · have ho := Content.own.inj (hloc.frame (.own d.channel) hy)
      have hf := Content.frame.inj (hloc.frame (.frame (.loop d.channel))
        fun h => hy (Thread.loop.inj h))
      exact ⟨d, hd.of_own ho hf, rfl, hc⟩

/-- A turn that can start comes to its end. -/
theorem turn_of_step (hr : (gateway g).Reachable s) (ha : a.Quiet) (h : Step g s a u) :
    ∃ s', Turn g s a s' := by
  rcases ha.cases with ⟨y, t, rfl⟩ | ⟨x, hx, ht, hth, -⟩
  · exact ⟨u, Turn.of_task.mpr h⟩
  · obtain ⟨as, s', hp, hi⟩ := (underway_of_event hr h ha ht hx).ends
    exact ⟨s', hth, u, as, h, hx ▸ hp, hx ▸ hi⟩

end ImProxy
