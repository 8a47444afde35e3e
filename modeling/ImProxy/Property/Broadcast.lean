import ImProxy.Gateway.Scenario
import ImProxy.Invariant.Visits

/-! # Broadcasts

A broadcast visits every entry of the registry at most once, and a channel that is
open between two handlers has at most one descriptor, so it gets each PUBLISH at
most once. The filter compares client ids and not channels. It keeps the sender
out because a channel carries its client id from the CONNECT on that registered it.
-/

set_option autoImplicit false

namespace ImProxy

open Concurrent Transition

variable {g : Gateway} {s s' : State} {t u : Thread} {choice : Choice} {f f' : Frame} {i : Instr}
  {x y p r : ChannelId} {a : Action} {d : Descriptor} {c : Channel} {w v : Write}

def Inbound.isPublish : Inbound → Bool
  | .publish _ => true
  | _ => false

/-- The packets on channel `r` that forward a PUBLISH received on channel `p`. -/
def State.deliveries (s : State) (p r : ChannelId) : List Write :=
  (s.channel r).sent.filter fun w => w.source = .loop p && w.packet.isPublish &&
    ((s.channel p).received[w.request]?).any Inbound.isPublish

/-- What the PUBLISHes received on channel `p` have put on channel `r`. -/
structure BroadcastSafe (g : Gateway) (s : State) (p r : ChannelId) : Prop where

  noEcho : p = r → s.deliveries p r = []

  /-- No PUBLISH is delivered twice, and none overtakes another. -/
  inOrder : (s.deliveries p r).Pairwise fun v w => v.request < w.request

  payload : ∀ w ∈ s.deliveries p r, ∃ msg,
    (s.channel p).received[w.request]? = some (.publish msg) ∧
      w.packet = pushMessage g (convertByteBufToString g msg.payload)

  accepted : ∀ (k : ℕ) (w : Write), (s.channel r).sent[k]? = some w → w ∈ s.deliveries p r →
    ∃ (j : ℕ) (v : Write), j < k ∧ (s.channel r).sent[j]? = some v ∧
      v.packet.isAccepted = true ∧ v.source = .loop r

/-! ## No echo -/

theorem write_own {q : MqttMessage} (hr : (gateway g).Reachable s)
    (hn : next g s (.loop x) choice (s.frame (.loop x)) = some (.write x q, f))
    (hq : q.isPublish = true) : ∃ msg, (s.channel x).received.getLast? = some (.connect msg) := by
  have ho := reachable_owned hr (.loop x)
  have hoth := reachable_others hr x
  have hh := reachable_handles hr x
  generalize s.frame (.loop x) = f₀ at hn ho hoth hh
  cases next_statement hn with
  | reply => simp [hh.1.2.1] at hq
  | refuse => exact hh.imp fun _ h => h.choose_spec.1
  | evictWrite => exact ⟨_, hh⟩
  | connAck | pubAck => cases hq
  | push => exact absurd rfl hoth
  | messageWrite => exact ho.elim

/-- No PUBLISH is on its way back to its channel. -/
def NoEcho (s : State) : Prop :=
  ∀ x, ∀ w ∈ (s.channel x).flow (.loop x), w.packet.isPublish = true →
    ∃ msg, (s.channel x).received[w.request]? = some (.connect msg)

theorem NoEcho.step (hr : (gateway g).Reachable s) (hs : NoEcho s) (h : Step g s a s') :
    NoEcho s' := by
  intro x w hw hp
  rcases mem_flow_step (reachable_registry hr) h hw with hw | hw
  · exact (hs x w hw hp).imp fun _ hm => received_getElem? h hm
  · obtain ⟨choice, q, f, rfl, hn, rfl⟩ := mem_adds.mp hw
    obtain ⟨msg, hm⟩ := write_own hr hn hp
    rw [List.getLast?_eq_getElem?] at hm
    exact ⟨msg, received_getElem? h hm⟩

theorem reachable_noEcho (h : (gateway g).Reachable s) : NoEcho s :=
  h.invariant (fun x w hw => by simp [State.init, Channel.init, Channel.flow] at hw)
    fun _ _ _ hr hs ht => hs.step hr (gateway_step.mp ht)

/-! ## Order -/

/-- The PUBLISHes from one channel to another in the order in which they were received. -/
structure Ordered (s : State) (x y : ChannelId) : Prop where

  flow : x = y ∨ (s.channel y).connects.length ≤ 1 →
    InOrder MqttMessage.isPublish ((s.channel y).flow (.loop x))

  sent : InOrder MqttMessage.isPublish ((s.channel y).sent.filter (·.source = .loop x))

theorem sent_step (hr : (gateway g).Reachable s) (h : Step g s a s') (hxy : x ≠ y)
    (hc : 1 < (s.channel y).connects.length) :
    (s'.channel y).sent.filter (·.source = .loop x) =
      (s.channel y).sent.filter (·.source = .loop x) := by
  have hch := h.onChannel y
  generalize s'.channel y = c at hch
  cases hch with
  | still _ | read _ | event _ _ => rfl
  | @task t k ks hf hk =>
    cases k with
    | close => rfl
    | write w =>
      rw [Channel.run_write_sent, if_neg]
      intro ho
      have := (reachable_lifecycle hr y).single (by rw [hf]; rfl) ho
      omega
  | @run t choice i f hn =>
    rw [State.exec_sent]
    cases i with
    | write z q =>
      simp only
      split_ifs with hz
      · obtain ⟨rfl, rfl, -⟩ := hz
        simp [Ne.symm hxy]
      · rfl
    | _ => rfl

theorem Ordered.step (hr : (gateway g).Reachable s) (hs : Ordered s x y) (h : Step g s a s') :
    Ordered s' x y := by
  have hflow : x = y ∨ (s.channel y).connects.length ≤ 1 →
      InOrder MqttMessage.isPublish ((s'.channel y).flow (.loop x)) := fun hc =>
    (visits_marks g x).inOrder_step hr (fun _ _ _ hn hq => (write_visits hr hn hq).2 hc)
      (hs.flow hc) h
  refine ⟨fun hc => hflow (hc.imp_right (connects_isPrefix h y).length_le.trans), ?_⟩
  by_cases hc : x = y ∨ (s.channel y).connects.length ≤ 1
  · exact (hflow hc).sublist (List.sublist_append_left _ _)
  · obtain ⟨hxy, hlen⟩ := not_or.mp hc
    rw [sent_step hr h hxy (by omega)]
    exact hs.sent

theorem reachable_ordered (h : (gateway g).Reachable s) (x y : ChannelId) : Ordered s x y :=
  h.invariant (P := fun s => Ordered s x y)
    ⟨fun _ => List.Pairwise.nil, List.Pairwise.nil⟩
    fun _ _ _ hr hs ht => hs.step hr (gateway_step.mp ht)

/-! ## Only accepted connections -/

/-- What other threads write on a channel follows an accepting CONNACK. -/
def Preceded (x : ChannelId) (c : Channel) : Prop :=
  ∀ (k : ℕ) (w : Write), c.sent[k]? = some w → w.source ≠ .loop x →
    ∃ (j : ℕ) (v : Write), j < k ∧ c.sent[j]? = some v ∧ v.packet.isAccepted = true

theorem Preceded.append {c' : Channel} (h : Preceded x c) (hs : c'.sent = c.sent ++ [w])
    (hw : w.source ≠ .loop x → ∃ v ∈ c.sent, v.packet.isAccepted = true) : Preceded x c' := by
  intro k v hv hx
  rw [hs] at hv
  rcases Nat.lt_or_ge k c.sent.length with hk | hk
  · rw [List.getElem?_append_left hk] at hv
    obtain ⟨j, u, hj, hu, ha⟩ := h k v hv hx
    exact ⟨j, u, hj, by rw [hs, List.getElem?_append_left (hj.trans hk)]; exact hu, ha⟩
  · rw [List.getElem?_append_right hk] at hv
    have hvw : w = v := by
      cases hn : k - c.sent.length with
      | zero => simpa [hn] using hv
      | succ n => simp [hn] at hv
    obtain ⟨u, hu, ha⟩ := hw (hvw ▸ hx)
    obtain ⟨j, hj⟩ := List.mem_iff_getElem?.mp hu
    have hlt := (List.getElem?_eq_some_iff.mp hj).1
    exact ⟨j, u, hlt.trans_le hk, by rw [hs, List.getElem?_append_left hlt]; exact hj, ha⟩

theorem preceded_local_invariant : LocalInvariant g System.always x fun c _ => Preceded x c where
  tasks _ h := h
  init := by simp [Preceded, Channel.init]
  read _ _ _ _ h := h
  lose h := h
  readerIdle h _ := h
  exceptionCaught h := h
  peerClose h := h
  task {s} t k ks hr hf hk h := by
    cases k with
    | close => exact h
    | write w =>
      by_cases ho : (s.channel x).isOpen = true
      · refine h.append (w := w) (by simp [ho]) fun _ => ?_
        obtain ⟨d, hd, hx⟩ := (reachable_registry hr).posted x t (by simp [hk])
        refine (reachable_history hr x).accepted ho ?_
        rw [hf, Channel.past_of_lt (by simp [Frame.stage]), ← hx]
        exact hd.connects_ne_nil
      · have hs : ((s.channel x).run (.write w)).sent = (s.channel x).sent := by simp [ho]
        unfold Preceded
        rw [hs]
        exact h
  run {s choice i f} _ _ _ _ h := by
    have hs := State.exec_sent s (.loop x) i x
    cases i with
    | write y q =>
      simp only at hs
      split_ifs at hs
      · exact h.append hs fun hne => absurd rfl hne
      · unfold Preceded; rw [hs]; exact h
    | _ => unfold Preceded; rw [hs]; exact h

theorem reachable_preceded (h : (gateway g).Reachable s) (x : ChannelId) :
    Preceded x (s.channel x) := preceded_local_invariant.reachable h

/-! ## The property -/

theorem mem_deliveries : w ∈ s.deliveries p r ↔ w ∈ (s.channel r).sent ∧ w.source = .loop p ∧
    w.packet.isPublish = true ∧
      ∃ msg, (s.channel p).received[w.request]? = some (.publish msg) := by
  have hpub : ∀ o : Option Inbound, o.any Inbound.isPublish = true ↔
      ∃ msg, o = some (.publish msg) := by
    rintro (_ | m)
    · simp
    · cases m <;> simp [Inbound.isPublish]
  simp [State.deliveries, hpub, and_assoc]

/-- In every reachable state the broadcasts of any channel on any other are safe. -/
theorem broadcast_safe (hr : (gateway g).Reachable s) (p r : ChannelId) :
    BroadcastSafe g s p r where
  noEcho := by
    rintro rfl
    refine List.eq_nil_iff_forall_not_mem.mpr fun w hw => ?_
    obtain ⟨hsent, hsrc, hp, msg, hm⟩ := mem_deliveries.mp hw
    obtain ⟨m, hm'⟩ := reachable_noEcho hr p w (hsrc ▸ mem_flow_of_sent hsent) hp
    cases hm.symm.trans hm'
  inOrder := by
    have h := (reachable_ordered hr p r).sent
    rw [InOrder, List.filter_filter] at h
    refine h.sublist (List.monotone_filter_right _ fun w hw => ?_)
    simp only [Bool.and_eq_true, decide_eq_true_eq] at hw ⊢
    exact ⟨hw.1.2, hw.1.1⟩
  payload w hw := by
    obtain ⟨hsent, hsrc, hp, msg, hm⟩ := mem_deliveries.mp hw
    obtain ⟨m, hm', ha⟩ := reachable_answered hr p r w (hsrc ▸ mem_flow_of_sent hsent)
    cases hm.symm.trans hm'
    refine ⟨msg, hm, ha.resolve_left fun he => ?_⟩
    rw [he] at hp
    cases hp
  accepted k w hk hw := by
    obtain ⟨hsent, hsrc, hp, msg, hm⟩ := mem_deliveries.mp hw
    have hne : w.source ≠ .loop r := by
      rw [hsrc]
      rintro ⟨⟩
      obtain ⟨m, hm'⟩ := reachable_noEcho hr p w (hsrc ▸ mem_flow_of_sent hsent) hp
      cases hm.symm.trans hm'
    obtain ⟨j, v, hj, hv, ha⟩ := reachable_preceded hr r k w hk hne
    exact ⟨j, v, hj, hv, ha, ((reachable_history hr r).connAck v (List.mem_of_getElem? hv)
      (isConnAck_of_isAccepted ha)).1⟩

def publishToOne : List Action :=
  join 0 "a" ++ join 1 "b" ++ .read 0 (.publish (publishOf .atLeastOnce 1)) :: proceed 0 4 ++
    [.run (.loop 0) (.fetch "b"), .run (.loop 0) (.fetch "a")] ++ proceed 0 7 ++
    [.run (.loop 0) .finish, .task 1 (.loop 0)]

theorem broadcast_safe_publishToOne : ((after publishToOne).deliveries 0 1).length = 1 ∧
    BroadcastSafe ascii (after publishToOne) 0 1 :=
  ⟨by decide, broadcast_safe (reachable_after (by decide)) 0 1⟩

end ImProxy
