import ImProxy.Invariant.Flow

/-! # Packets in the order of the messages they answer

A handler that writes packets of some kind marks its frames, and the mark stays for
the rest of the handler. Where it writes such a packet from unmarked frames only, the
flow has at most one for each message, in the order in which the messages arrived.
-/

set_option autoImplicit false

namespace ImProxy

open Concurrent Transition

variable {g : Gateway} {s s' : State} {choice : Choice} {f f' : Frame} {i : Instr}
  {x y : ChannelId} {a : Action} {c : Channel} {w : Write} {kind : MqttMessage → Bool}
  {M : ChannelId → Frame → Prop}

/-- The packets of a kind among these answer different messages, in the order of their arrival. -/
def InOrder (kind : MqttMessage → Bool) (ws : List Write) : Prop :=
  (ws.filter (kind ·.packet)).Pairwise fun v w => v.request < w.request

theorem InOrder.sublist {vs ws : List Write} (h : InOrder kind ws) (hs : vs.Sublist ws) :
    InOrder kind vs := List.Pairwise.sublist (hs.filter _) h

/-- A mark on the frames of an event loop: the handler may have put a packet of the kind on a
channel already. -/
structure Marks (g : Gateway) (x : ChannelId) (kind : MqttMessage → Bool)
    (M : ChannelId → Frame → Prop) : Prop where

  inactive : ∀ y c, M y (channelInactive x c)

  close : ∀ y, M y (.close x)

  next : ∀ {s choice i f f'} y, M y f → next g s (.loop x) choice f = some (i, f') → M y f'

  write : ∀ {s choice y q f}, (gateway g).Reachable s →
    ImProxy.next g s (.loop x) choice (s.frame (.loop x)) = some (.write y q, f) →
    kind q = true → M y f

/-- A packet of the kind that answers the message being handled has left its mark. -/
def Marked (kind : MqttMessage → Bool) (M : ChannelId → Frame → Prop) (x : ChannelId)
    (s : State) : Prop :=
  ∀ y, ∀ w ∈ (s.channel y).flow (.loop x), kind w.packet = true →
    w.request + 1 = (s.channel x).received.length → M y (s.frame (.loop x))

namespace Marks

theorem frame_step (hM : Marks g x kind M) (h : Step g s a s')
    (hlen : (s'.channel x).received.length = (s.channel x).received.length)
    (hf : M y (s.frame (.loop x))) : M y (s'.frame (.loop x)) := by
  cases h with
  | @read z q _ _ =>
    simp only [State.start_frame_loop]
    split_ifs with hx
    · subst hx; simp [Channel.receive] at hlen
    · exact hf
  | inactive _ _ | readerIdle _ _ _ =>
    simp only [State.start_frame_loop]
    split_ifs with hx
    · exact hx ▸ hM.inactive ..
    · exact hf
  | exceptionCaught _ =>
    simp only [State.setFrame_frame, Thread.loop.injEq]
    split_ifs with hx
    · exact hx ▸ hM.close y
    · exact hf
  | call _ => simpa [State.setFrame_frame] using hf
  | peerClose _ | task _ _ => exact hf
  | @run t choice i f hn =>
    rw [State.setFrame_frame]
    split_ifs with ht
    · subst ht; exact hM.next y hf hn
    · rw [State.exec_frame]; exact hf

theorem step (hM : Marks g x kind M) (hr : (gateway g).Reachable s) (hs : Marked kind M x s)
    (h : Step g s a s') : Marked kind M x s' := by
  intro y w hw hk hreq
  rcases mem_flow_step (reachable_registry hr) h hw with hw | hw
  · obtain ⟨m, hm, -⟩ := reachable_answered hr x y w hw
    have hlt := (List.getElem?_eq_some_iff.mp hm).1
    have hle := (received_isPrefix h x).length_le
    exact hM.frame_step h (by omega) (hs y w hw hk (by omega))
  · obtain ⟨choice, q, f, rfl, hn, rfl⟩ := mem_adds.mp hw
    cases h with
    | run hn' =>
      cases hn.symm.trans hn'
      rw [State.setFrame_frame_self]
      exact hM.write hr hn hk

theorem reachable (hM : Marks g x kind M) (h : (gateway g).Reachable s) : Marked kind M x s :=
  h.invariant (fun y w hw => by simp [State.init, Channel.init, Channel.flow] at hw)
    fun _ _ _ hr hs ht => hM.step hr hs (gateway_step.mp ht)

/-- A packet written from an unmarked frame answers a later message than those before it. -/
theorem inOrder_step (hM : Marks g x kind M) (hr : (gateway g).Reachable s)
    (hn : ∀ choice q f, ImProxy.next g s (.loop x) choice (s.frame (.loop x)) =
      some (.write y q, f) → kind q = true → ¬M y (s.frame (.loop x)))
    (hs : InOrder kind ((s.channel y).flow (.loop x))) (h : Step g s a s') :
    InOrder kind ((s'.channel y).flow (.loop x)) := by
  refine InOrder.sublist ?_ (flow_step (reachable_registry hr) h y _).1
  unfold InOrder
  rw [List.filter_append, List.pairwise_append]
  refine ⟨hs, (adds_pairwise _).filter _, fun v hv w hw => ?_⟩
  rw [List.mem_filter] at hv hw
  obtain ⟨choice, q, f, rfl, hq, rfl⟩ := mem_adds.mp hw.1
  obtain ⟨m, hm, -⟩ := reachable_answered hr x y v hv.1
  have hlt := (List.getElem?_eq_some_iff.mp hm).1
  have hne : v.request + 1 ≠ (s.channel x).received.length := fun he =>
    hn choice q f hq hw.2 (hM.reachable hr y v hv.1 hv.2 he)
  simp only [State.request]
  omega

end Marks

end ImProxy
