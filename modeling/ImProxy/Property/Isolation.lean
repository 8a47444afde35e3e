import ImProxy.Gateway.Scenario
import ImProxy.Invariant.Bystander
import ImProxy.Invariant.Deletion

/-! # Unauthenticated channels

The handlers of a channel without an accepted CONNECT answer on the own channel only,
except that a PUBLISH is broadcast. On serial runs where every registered connection
is closed whenever that happens, such a channel influences nobody: without what it has
sent the registry and the packets on the other channels are the same.
-/

set_option autoImplicit false

namespace ImProxy

open Concurrent Transition

variable {g : Gateway} {D : ChannelId → Bool} {s : State} {as : List Action}

/-- The channels in `D` influence nobody before a CONNECT is accepted there. -/
structure Isolated (g : Gateway) (D : ChannelId → Bool) (as : List Action) (s : State) : Prop where

  /-- What remains after the deletion is a run to the same registry, with the same packets on
  every channel of which nothing is deleted. -/
  remains : ∃ s', (gateway g).run ((deletion g D).remaining (gateway g) (.init g) false as)
      (.init g) = some s' ∧ s'.connectionDescriptors = s.connectionDescriptors ∧
    ∀ y, Spared g D s y →
      (s'.channel y).sent.map Write.packet = (s.channel y).sent.map Write.packet

  /-- What is published on a channel without an accepted CONNECT reaches nobody. -/
  unheard : ∀ x y w, D x = true → unaccepted g (s.channel x).received = true →
    w ∈ (s.channel y).sent → w.source = .loop x → w.packet.isPublish = false

/-! ## Serial runs -/

/-- The condition for a serial run of some channels only. -/
def SerialOn (xs : List ChannelId) : Condition State Action := fun s a =>
  a.startsHandler = true → ∀ x ∈ xs, (s.frame (.loop x)).isIdle = true

instance {xs : List ChannelId} (s : State) : DecidablePred (SerialOn xs s) := fun _ =>
  inferInstanceAs (Decidable (_ → _))

theorem serial_of_serialOn {xs : List ChannelId}
    (h : (gateway g).Path (SerialOn xs) (.init g) as s)
    (ha : ∀ a ∈ as, a.actor ∈ xs.map Thread.loop) : (gateway g).Path Serial (.init g) as s := by
  induction h with
  | nil => exact .nil
  | @snoc as a v w hv hc hw ih =>
    have has : ∀ b ∈ as, b.actor ∈ xs.map Thread.loop := fun b hb =>
      ha b (List.mem_append_left _ hb)
    refine .snoc (ih has) (fun hstart t => ?_) hw
    by_cases ht : t ∈ xs.map Thread.loop
    · obtain ⟨x, hx, rfl⟩ := List.mem_map.mp ht
      exact Frame.isIdle_iff.mp (hc hstart x hx)
    · refine (bystander_run (System.path_iff_run.mp hv.forget) fun b hb he => ht ?_).frame
      exact he ▸ has b hb

/-! ## The property -/

/-- Before a CONNECT is accepted on them, channels influence nobody in a serial run in which their
PUBLISHes find every registered connection closed. -/
theorem unauthenticated_isolated (h : (gateway g).Path (SerialUnheard g D) (.init g) as s) :
    Isolated g D as s := by
  obtain ⟨dropping, s', hrun, hp⟩ := Purged.simulates.run h .init
  refine ⟨⟨s', hrun, hp.view.connectionDescriptors, fun y hy => (hp.sent y hy).sent⟩, ?_⟩
  intro x y w hx hu hw hs
  by_contra hn
  have hd := hp.unheard y w hw (by simpa using hn)
  simp only [answersDeleted, hs, hx, Bool.true_and] at hd
  rw [unaccepted_of_isPrefix (List.take_prefix _ _) hu] at hd
  cases hd

def publishBeforeJoin : List Action :=
  .read 0 (.publish (publishOf .atMostOnce 0)) :: proceed 0 2 ++ [.run (.loop 0) .finish] ++
    join 1 "b" ++ .read 1 .pingReq :: proceed 1 1

theorem unauthenticated_isolated_publishBeforeJoin :
    ((after publishBeforeJoin).channel 1).sent.length = 2 ∧
      Isolated ascii (fun _ => true) publishBeforeJoin (after publishBeforeJoin) := by
  have hs : (gateway ascii).Path (SerialOn [0, 1]) (.init ascii) publishBeforeJoin
      (after publishBeforeJoin) := path_to_after (by decide)
  exact ⟨by decide, unauthenticated_isolated
    ((serial_of_serialOn hs (by decide)).and (path_to_after (by decide)))⟩

def publishUnauthenticated : List Action :=
  join 1 "b" ++ .read 0 (.publish (publishOf .atMostOnce 0)) :: proceed 0 2 ++
    [.run (.loop 0) (.fetch "b")] ++ proceed 0 5 ++ [.run (.loop 0) .finish, .task 1 (.loop 0)]

theorem publish_unauthenticated_delivered :
    (gateway ascii).Path Serial (.init ascii) publishUnauthenticated
        (after publishUnauthenticated) ∧
      ¬Isolated ascii (· == 0) publishUnauthenticated (after publishUnauthenticated) := by
  have hs : (gateway ascii).Path (SerialOn [0, 1]) (.init ascii) publishUnauthenticated
      (after publishUnauthenticated) := path_to_after (by decide)
  refine ⟨serial_of_serialOn hs (by decide), fun h => ?_⟩
  obtain ⟨s', hrun, -, hsent⟩ := h.remains
  have hone : ((gateway ascii).run ((deletion ascii (· == 0)).remaining (gateway ascii)
      (.init ascii) false publishUnauthenticated) (.init ascii)).map
        (fun s => (s.channel 1).sent.length) = some 1 := by decide
  have htwo : ((after publishUnauthenticated).channel 1).sent.length = 2 := by decide
  rw [hrun, Option.map_some, Option.some.injEq] at hone
  have hl := congrArg List.length (hsent 1 fun hd => by cases hd)
  rw [List.length_map, List.length_map, hone, htwo] at hl
  cases hl

end ImProxy
