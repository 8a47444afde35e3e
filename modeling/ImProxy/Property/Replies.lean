import ImProxy.Invariant.History
import ImProxy.Property.Session

/-! # Requests and replies

A CONNECT, a SUBSCRIBE, an UNSUBSCRIBE and a PINGREQ are answered on their channel,
each by one packet and in the order in which they came. The CONNACKs, SUBACKs,
UNSUBACKs and PINGRESPs of a channel therefore follow from what it has received, and
on an open channel between two handlers none of them is missing.
-/

set_option autoImplicit false

namespace ImProxy

open Concurrent Transition

variable {g : Gateway} {s s' : State} {choice : Choice} {f f' : Frame} {i : Instr}
  {x y : ChannelId} {c c' : Channel} {d : Descriptor} {msg : MqttConnectMessage} {l : ConnectLine}
  {p : MqttMessage} {q : Inbound} {w : Write}

/-- The packet that replies to a message. -/
def replyTo (g : Gateway) : Inbound → Option MqttMessage
  | .connect msg =>
    match refusal g msg with
    | some code => some (connAck code false)
    | none => some (connAck .connectionAccepted !msg.isCleanSession)
  | .subscribe msg => some (doAckMessageFromValidateFilters (doVerify msg) msg.messageId)
  | .unsubscribe msg => some ⟨fixedHeader .unsubAck .atLeastOnce, .unsubAck msg.messageId⟩
  | .pingReq => some pingResp
  | _ => none

def MqttMessage.isReply (p : MqttMessage) : Bool := !p.isPublish && !p.isPubAck

def Channel.replies (c : Channel) : List MqttMessage :=
  (c.sent.map Write.packet).filter MqttMessage.isReply

def Channel.requested (g : Gateway) (c : Channel) : List MqttMessage :=
  c.received.filterMap (replyTo g)

/-- The reply that a handler has still to write. -/
def Frame.pending : Frame → List MqttMessage
  | .reply _ p => [p]
  | .refuse _ p => [p]
  | .connect msg _ l =>
    if l.stage ≤ 9 then [connAck .connectionAccepted !msg.isCleanSession] else []
  | _ => []

/-- What a channel has been sent and what its handler will still reply. -/
structure Replying (g : Gateway) (c : Channel) (f : Frame) : Prop where

  opened : c.isOpen = true → c.replies ++ f.pending = c.requested g

  prior : c.replies <+: c.requested g

theorem channelRead_pending (g : Gateway) (x : ChannelId) (c : Channel) (q : Inbound) :
    (channelRead g x c q).pending = (replyTo g q).toList := by
  cases q with
  | connect msg =>
    simp only [channelRead, processConnect, replyTo]
    cases refusal g msg <;> rfl
  | publish msg => simp only [channelRead, processPublish, receivedPublish]; split <;> rfl
  | disconnect => simp only [channelRead, processDisconnect]; split <;> rfl
  | _ => rfl

theorem channelInactive_pending (x : ChannelId) (c : Channel) :
    (channelInactive x c).pending = [] := by
  unfold channelInactive
  split
  · rfl
  · split_ifs <;> rfl

namespace Replying

theorem quiet (h : Replying g c f) (hr : c'.received = c.received) (hs : c'.replies = c.replies)
    (ho : c'.isOpen = true → c.isOpen = true ∧ f'.pending = f.pending) : Replying g c' f' := by
  have hq : c'.requested g = c.requested g := by rw [Channel.requested, hr]; rfl
  refine ⟨fun ho' => ?_, by rw [hs, hq]; exact h.prior⟩
  rw [hs, hq, (ho ho').2]
  exact h.opened (ho ho').1

theorem receive (h : Replying g c .idle) (q : Inbound) :
    Replying g (c.receive g q) (channelRead g x c q) := by
  have hq : (c.receive g q).requested g = c.requested g ++ (replyTo g q).toList := by
    simp only [Channel.requested, Channel.receive, List.filterMap_append, List.filterMap_cons,
      List.filterMap_nil]
    cases replyTo g q <;> rfl
  refine ⟨fun ho => ?_, ?_⟩
  · rw [hq, channelRead_pending, ← h.opened ho]
    simp [Channel.receive, Channel.replies, Frame.pending]
  · rw [hq]
    exact h.prior.trans (List.prefix_append _ _)

theorem write (h : Replying g c f) (hr : c'.received = c.received)
    (hs : c'.replies = if c.isOpen then c.replies ++ [p] else c.replies)
    (ho : c'.isOpen = c.isOpen) (hf : f.pending = p :: f'.pending) : Replying g c' f' := by
  have hq : c'.requested g = c.requested g := by rw [Channel.requested, hr]; rfl
  cases hc : c.isOpen with
  | false =>
    rw [hc, if_neg (by decide)] at hs
    exact ⟨fun ho' => by simp [ho, hc] at ho', by rw [hs, hq]; exact h.prior⟩
  | true =>
    rw [hc, if_pos rfl] at hs
    have he : c'.replies ++ f'.pending = c'.requested g := by
      rw [hs, hq, ← h.opened hc, hf, List.append_assoc]
      rfl
    exact ⟨fun _ => he, he ▸ List.prefix_append _ _⟩

end Replying

theorem next_pending (hf : f.Of (.loop x)) (hh : Handles g c f)
    (hs : ∀ msg d, f = .connect msg d .sendAck → s.descriptorState d = some .disconnected)
    (h : next g s (.loop x) choice f = some (i, f')) :
    (∃ p, i = .write x p ∧ p.isReply = true ∧ f.pending = p :: f'.pending) ∨
      (∀ p, i = .write x p → p.isReply = false) ∧ f'.pending = f.pending := by
  cases next_statement h with
  | reply =>
    cases hf
    exact .inl ⟨_, rfl, by simp [MqttMessage.isReply, hh.1.2.1, hh.1.2.2], rfl⟩
  | refuse =>
    cases hf
    obtain ⟨msg, code, -, -, rfl⟩ := hh
    exact .inl ⟨_, rfl, rfl, rfl⟩
  | connAck =>
    obtain ⟨hx, -⟩ := hf
    exact .inl ⟨_, by rw [hx], rfl, rfl⟩
  | sendAckFailed hd => exact absurd (hs _ _ rfl) hd
  | evictWrite | pubAck | push | messageWrite =>
    refine .inr ⟨fun p hp => ?_, rfl⟩
    cases hp
    rfl
  | _ => exact .inr (by simp [Frame.pending, ConnectLine.stage, pushReceived, thrown])

theorem replies_exec : ((s.exec (.loop x) i).channel x).replies =
    match i with
    | .write y p =>
      if x = y ∧ (s.channel x).isOpen = true ∧ p.isReply = true then (s.channel x).replies ++ [p]
      else (s.channel x).replies
    | _ => (s.channel x).replies := by
  rw [Channel.replies, State.exec_sent]
  cases i with
  | write y p =>
    simp only
    by_cases hy : x = y
    · subst hy
      cases ho : (s.channel x).isOpen <;> cases hp : p.isReply <;>
        simp [hp, Channel.replies]
    · simp [hy, Channel.replies]
  | _ => rfl

theorem replying_local_invariant : LocalInvariant g System.always x (Replying g) where
  tasks ts h := ⟨h.opened, h.prior⟩
  init := ⟨fun _ => rfl, List.prefix_rfl⟩
  read q _ _ _ h := h.receive q
  lose h := h.quiet rfl rfl nofun
  readerIdle h _ := h.quiet rfl rfl fun ho => ⟨ho, channelInactive_pending ..⟩
  exceptionCaught h := h.quiet rfl rfl fun ho => ⟨ho, rfl⟩
  peerClose h := h.quiet rfl rfl nofun
  task {s} t k ks hr _ hk h := by
    cases k with
    | close => exact h.quiet rfl rfl nofun
    | write w =>
      -- other threads write PUBLISHes and PUBACKs only
      obtain ⟨-, hw⟩ := (reachable_registry hr).packets x t w (by simp [hk])
      refine h.quiet (by simp) ?_ fun ho => ⟨by simpa using ho, rfl⟩
      have hp : w.packet.isReply = false := by
        rcases hw with hw | hw | ⟨content, hw⟩ <;> rw [hw] <;> rfl
      cases ho : (s.channel x).isOpen <;> simp [Channel.replies, ho, hp]
  run {s choice i f} hr _ hf hn h := by
    have hh := reachable_handles hr.reachable x
    have hl := reachable_lifecycle hr.reachable x
    rcases next_pending hf hh (fun _ _ he => hl.sendAck he) hn with
      ⟨p, rfl, hp, hpend⟩ | ⟨hi, hpend⟩
    · refine h.write (State.exec_received ..) ?_ (by simp [State.exec_isOpen]) hpend
      rw [replies_exec]
      simp [hp]
    · refine h.quiet (State.exec_received ..) ?_ fun ho => ⟨State.isOpen_of_exec ho, hpend⟩
      rw [replies_exec]
      cases i with
      | write y p =>
        simp only
        rw [if_neg]
        rintro ⟨rfl, -, hp⟩
        rw [hi p rfl] at hp
        cases hp
      | _ => rfl

/-! ## The property -/

/-- The replies sent on a channel are the first of those that its messages call for, and all of
them on an open channel between two handlers. -/
theorem replies_of_received (hr : (gateway g).Reachable s) (x : ChannelId) :
    (s.channel x).replies <+: (s.channel x).requested g ∧
      (s.frame (.loop x) = .idle → (s.channel x).isOpen = true →
        (s.channel x).replies = (s.channel x).requested g) := by
  have h : Replying g (s.channel x) (s.frame (.loop x)) := replying_local_invariant.reachable hr
  refine ⟨h.prior, fun hf ho => ?_⟩
  rw [← h.opened ho, hf]
  exact (List.append_nil _).symm

def pingAround : List Action :=
  [.read 0 .pingReq, .run (.loop 0) .proceed] ++ join 0 "a" ++
    [.read 0 .pingReq, .run (.loop 0) .proceed]

theorem replies_of_received_pingAround :
    ((after pingAround).channel 0).replies =
      [pingResp, connAck .connectionAccepted false, pingResp] :=
  ((replies_of_received (reachable_after (by decide)) 0).2 (Frame.isIdle_iff.mp (by decide))
    (by decide)).trans (by decide)

end ImProxy
