import ImProxy.Gateway.Scenario
import ImProxy.Invariant.Loss

/-! # Dead entries

The loss of a channel removes the entry under the client id that the channel
carries at that time. An entry under another client id stays: a CONNECT for a new
client id on a channel that is registered already sets the new client id over the
old one. On runs without such a CONNECT no entry outlives its channel.
-/

set_option autoImplicit false

namespace ImProxy

open Concurrent Transition

variable {g : Gateway} {s s' : State} {choice : Choice} {f : Frame} {i : Instr}
  {x : ChannelId} {a : Action} {c : String} {d : Descriptor}

/-- The client id that a step of `initializeKeepAliveTime` overwrites, and the descriptor whose
channel gets the new one. -/
def State.overwrites (s : State) (a : Action) : Option (String × Descriptor) :=
  match s.executes a with
  | .connect _ d .clientID =>
    (s.channel d.channel).attributes.clientID.map fun old => (old, d)
  | _ => none

/-- A channel gets a different client id only when it is not registered under the old one. -/
def Renames : Condition State Action := fun s a =>
  ∀ r ∈ s.overwrites a, r.1 ≠ r.2.clientID →
    ∀ e ∈ s.connectionDescriptors.get r.1, e.channel ≠ r.2.channel

instance (s : State) : DecidablePred (Renames s) := fun a =>
  inferInstanceAs (Decidable (∀ r ∈ s.overwrites a, _))

/-- The entries of a channel are kept under the client id it carries, or the CONNECT that is
about to set it is under way. -/
def Tracked (s : State) (x : ChannelId) : Prop :=
  ∀ c d, s.connectionDescriptors.get c = some d → d.channel = x →
    (s.channel x).attributes.clientID = some c ∨
      ∃ msg e l, s.frame (.loop x) = .connect msg e l ∧ 1 < l.stage ∧ l.stage ≤ 6 ∧
        msg.clientId = c

theorem Tracked.run (h : Tracked s x) (hr : (gateway g).Reachable s)
    (hc : Renames s (.run (.loop x) choice))
    (hn : next g s (.loop x) choice (s.frame (.loop x)) = some (i, f)) :
    Tracked ((s.exec (.loop x) i).setFrame (.loop x) f) x := by
  intro c d hd hx
  have ho := reachable_owned hr (.loop x)
  rw [State.setFrame_channel, State.setFrame_frame_self, State.exec_attributes]
  have old := get_exec hd
  simp only [Renames, State.overwrites, State.executes] at hc
  have hs := h c d
  generalize s.frame (.loop x) = f₀ at *
  rcases old with old | ⟨rfl, hcid⟩
  · rcases hs old hx with ha | ⟨msg, e, l, rfl, h₁, h₆, hm⟩
    · left
      cases next_statement hn with
      | @clientID msg e =>
        -- the entry under the old client id is not the channel's
        have hcond := hc (c, e) (by simp only [ho.1, ha]; rfl)
        simp only [if_pos ho.1.symm, Attributes.set]
        by_contra hne
        refine hcond (fun he => hne ?_) d old (hx.trans ho.1.symm)
        rw [← ho.2, ← he]
      | _ => first | exact ha | (simp only; split_ifs <;> exact ha)
    · cases next_statement hn with
      | evictWrite | evictAbort | keepAlive | cleanSession =>
        exact .inr ⟨_, _, _, rfl, by simp [ConnectLine.stage], by simp [ConnectLine.stage], hm⟩
      | clientID => exact .inl (by simp only [if_pos ho.1.symm, Attributes.set, hm])
      | _ => simp [ConnectLine.stage] at h₁ h₆
  · cases next_statement hn with
    | putNew | putOver =>
      exact .inr ⟨_, _, _, rfl, by simp [ConnectLine.stage], by simp [ConnectLine.stage],
        ho.2.symm.trans hcid⟩

theorem Tracked.step (hr : (gateway g).Reachable s) (h : Tracked s x) (hc : Renames s a)
    (hs : Step g s a s') : Tracked s' x := by
  have ho := reachable_owned hr
  by_cases ha : ∃ choice, a = .run (.loop x) choice
  · obtain ⟨choice, rfl⟩ := ha
    cases hs with
    | run hn => exact h.run hr hc hn
  intro c d hd hx
  have old := h c d (hs.get_old ho ha hd hx) hx
  have hstep := hs.onLoop (reachable_neverNotified hr) ho x
  generalize s'.channel x = c', s'.frame (.loop x) = f' at hstep ⊢
  -- no CONNECT is under way between two handlers
  have idle : s.frame (.loop x) = .idle → (s.channel x).attributes.clientID = some c := by
    intro hf
    refine old.resolve_right ?_
    rintro ⟨msg, e, l, he, -⟩
    simp [hf] at he
  cases hstep with
  | foreign _ => exact old
  | read hf _ | inactive hf | readerIdle hf _ | exceptionCaught hf | peerClose hf =>
    exact .inl (idle hf)
  | task hf _ => exact .inl (by simpa using idle hf)
  | run _ => exact absurd ⟨_, rfl⟩ ha

/-- The entry of a client id belongs to a channel whose loss was not handled. -/
def State.isLive (s : State) (c : String) : Bool :=
  (s.connectionDescriptors.get c).any fun d => !(s.channel d.channel).lossHandled

/-- No entry holds a descriptor of a channel whose loss was handled, so the queries of the
registry count live connections only. -/
structure NoDeadEntries (s : State) : Prop where

  entries : ∀ x, (s.channel x).lossHandled = true →
    ∀ c d, s.connectionDescriptors.get c = some d → d.channel ≠ x

  isConnected : ∀ c, s.isConnected c = true → s.isLive c = true

  getConnectedClientIds : ∀ c ∈ s.getConnectedClientIds, s.isLive c = true

  getActiveConnectionsNo :
    s.getActiveConnectionsNo = (s.getConnectedClientIds.filter (s.isLive ·)).card

theorem NoDeadEntries.of_entries (h : ∀ x, (s.channel x).lossHandled = true →
    ∀ c d, s.connectionDescriptors.get c = some d → d.channel ≠ x) : NoDeadEntries s := by
  have live : ∀ c, s.isConnected c = true → s.isLive c = true := by
    intro c hc
    obtain ⟨d, hd⟩ := Option.isSome_iff_exists.mp hc
    have hx : (s.channel d.channel).lossHandled = false :=
      Bool.eq_false_iff.mpr fun hx => h d.channel hx c d hd rfl
    simp [State.isLive, hd, hx]
  have keys : ∀ c ∈ s.getConnectedClientIds, s.isLive c = true := fun c hc =>
    live c (Finmap.lookup_isSome.mpr (Finmap.mem_keys.mp hc))
  refine ⟨h, live, keys, ?_⟩
  rw [Finset.filter_true_of_mem keys]
  rfl

/-- On runs whose channels change their client id only when they are not registered under the
old one, no entry outlives its channel. -/
theorem no_dead_entries (h : (gateway g).ReachableWhere Renames s) : NoDeadEntries s := by
  refine .of_entries fun x hx c d hd hdx => ?_
  have htr : Tracked s x := h.invariant (P := fun s => Tracked s x)
    (by intro c d hd; simp [State.init] at hd)
    fun _ _ _ hr hs hc ht => hs.step hr.reachable hc (gateway_step.mp ht)
  rcases htr c d hd hdx with ha | ⟨msg, e, l, hf, -⟩
  · exact reachable_unregistered h.reachable x (.inr hx) c d ha hd hdx
  · have hl := reachable_loss h.reachable x
    rcases hl.frames (hl.handled hx).1 with ⟨hf' | hf', -⟩ | ⟨b, hf'⟩ | hf' <;>
      simp [hf] at hf'

def oneLoss : List Action := join 0 "a" ++ .inactive 0 :: proceed 0 2

theorem no_dead_entries_oneLoss : ((after oneLoss).channel 0).lossHandled = true ∧
    NoDeadEntries (after oneLoss) :=
  ⟨by decide, no_dead_entries (reachableWhere_after (by decide))⟩

/-- Two CONNECTs with different client ids on one channel, and the loss of the channel. -/
def twoClientIds : List Action :=
  join 0 "a" ++ .read 0 (.connect (connectAs "b")) :: proceed 0 11 ++ .inactive 0 :: proceed 0 2

theorem dead_entry_twoClientIds : ∃ s, (gateway ascii).run twoClientIds (.init ascii) = some s ∧
    ¬NoDeadEntries s := by
  refine ⟨after twoClientIds, run_after (by decide), fun h => ?_⟩
  exact h.entries 0 (by decide) "a" ⟨"a", 0, true, 0⟩ (by decide) rfl

end ImProxy
