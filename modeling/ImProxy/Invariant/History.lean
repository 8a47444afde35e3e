import ImProxy.Invariant.Registry

/-! # What a channel has received and what was written on it

The frame of an event loop belongs to the message its channel received last. A
channel that began with a CONNECT is answered with a CONNACK before anything else
is written on it, and an accepting CONNACK belongs to a CONNECT that passed all
checks.
-/

set_option autoImplicit false

namespace ImProxy

open Concurrent Transition

variable {g : Gateway} {s s' : State} {t u : Thread} {choice : Choice} {f f' : Frame} {i : Instr}
  {x y : ChannelId} {a : Action} {d : Descriptor} {c : Channel} {msg : MqttConnectMessage}

/-! ## The message being handled -/

/-- The packets that the handler of a message writes. -/
def Answers (g : Gateway) : Inbound → MqttMessage → Prop
  | .connect _, p => p = beExited g ∨ p.isConnAck = true
  | .publish msg, p => p = pubAck 1 ∨ p = pushMessage g (convertByteBufToString g msg.payload)
  | _, p => p.isConnAck = false ∧ p.isPublish = false ∧ p.isPubAck = false

/-- The frame belongs to the last message received. -/
def Handles (g : Gateway) (c : Channel) : Frame → Prop
  | .connect msg _ _ => c.received.getLast? = some (.connect msg)
  | .refuse _ p => ∃ msg code, c.received.getLast? = some (.connect msg) ∧
      refusal g msg = some code ∧ p = connAck code false
  | .reply _ p => (p.isConnAck = false ∧ p.isPublish = false ∧ p.isPubAck = false) ∧
      ∃ m, c.received.getLast? = some m ∧ Answers g m p
  | .pubAck _ msg clientID _ => c.received.getLast? = some (.publish msg) ∧
      clientID = c.attributes.clientID
  | .push content clientId _ _ => ∃ msg, c.received.getLast? = some (.publish msg) ∧
      content = convertByteBufToString g msg.payload ∧ clientId = c.attributes.clientID
  | _ => True

theorem Frame.Loses.handles (h : f.Loses x) : Handles g c f := by
  cases h <;> trivial

theorem handles_read (p : Inbound) :
    Handles g (c.receive g p) (channelRead g x c p) := by
  have hl : (c.receive g p).received.getLast? = some p := by simp [Channel.receive]
  cases p with
  | connect msg =>
    simp only [channelRead, processConnect]
    split
    · next code hc => exact ⟨msg, code, hl, hc, rfl⟩
    · exact hl
  | publish msg =>
    simp only [channelRead, processPublish]
    split <;> first | exact ⟨hl, rfl⟩ | trivial
  | disconnect => simp only [channelRead, processDisconnect]; split <;> trivial
  | subscribe msg => exact ⟨⟨rfl, rfl, rfl⟩, _, hl, rfl, rfl, rfl⟩
  | unsubscribe msg => exact ⟨⟨rfl, rfl, rfl⟩, _, hl, rfl, rfl, rfl⟩
  | pingReq => exact ⟨⟨rfl, rfl, rfl⟩, _, hl, rfl, rfl, rfl⟩
  | _ => trivial

theorem handles_local_invariant : LocalInvariant g System.always x (Handles g) where
  tasks {c f} ts h := by cases f <;> exact h
  init := trivial
  read p _ _ _ _ := handles_read p
  lose _ := (channelInactive_loses ..).handles
  readerIdle _ _ := (channelInactive_loses ..).handles
  exceptionCaught _ := trivial
  peerClose _ := trivial
  task _ _ _ _ _ _ _ := trivial
  run {s choice i f} _ _ hf hn h := by
    generalize s.frame (.loop x) = f₀ at hf hn h
    cases next_statement hn
    case notConnected | pubAck =>
      exact ⟨_, by simpa using h.1, rfl, by simpa [State.exec_attributes] using h.2⟩
    all_goals
      first
      | trivial
      | simpa [Handles, pushReceived, State.exec_attributes] using h

theorem reachable_handles (h : (gateway g).Reachable s) (x : ChannelId) :
    Handles g (s.channel x) (s.frame (.loop x)) := handles_local_invariant.reachable h

/-! ## Packets written -/

theorem refusal_ne_accepted {code : MqttConnectReturnCode} (h : refusal g msg = some code) :
    code ≠ .connectionAccepted := by
  rintro rfl
  unfold refusal isBadProtocol at h
  split_ifs at h <;> simp at h

theorem connAck_isAccepted {code : MqttConnectReturnCode} {b : Bool} :
    (connAck code b).isAccepted = true ↔ code = .connectionAccepted := by
  cases code <;> simp [connAck, MqttMessage.isAccepted]

theorem isConnAck_of_isAccepted {p : MqttMessage} (h : p.isAccepted = true) :
    p.isConnAck = true := by
  unfold MqttMessage.isAccepted at h
  unfold MqttMessage.isConnAck
  split at h
  · simp_all
  · cases h

/-- What the packets of a channel say about what it has received. -/
structure History (g : Gateway) (x : ChannelId) (c : Channel) (f : Frame) : Prop where

  accepted : c.isOpen = true → c.past f 9 ≠ [] → ∃ w ∈ c.sent, w.packet.isAccepted = true

  connAck : ∀ w ∈ c.sent, w.packet.isConnAck = true → w.source = .loop x ∧
    ∃ msg, c.received[w.request]? = some (.connect msg) ∧
      (w.packet.isAccepted = true → msg ∈ c.connects)

  first : ∀ msg, c.received.head? = some (.connect msg) → ∀ w, c.sent.head? = some w →
    w.packet.isConnAck = true

  opening : ∀ msg, c.received.head? = some (.connect msg) → c.isOpen = true → c.sent = [] →
    c.received.length = 1 ∧ (f.stage ≤ 9 ∨ ∃ y p, f = .refuse y p)

  unheard : c.received = [] → c.sent = []

  connects : c.connects.length ≤ c.received.length

theorem receive_connects (p : Inbound) (hm : msg ∈ c.connects) :
    msg ∈ (c.receive g p).connects := by
  cases p with
  | connect m =>
    simp only [Channel.connects, Channel.receive, newDescriptors] at hm ⊢
    split
    · exact hm
    · rw [List.map_append]; exact List.mem_append_left _ hm
  | _ => exact hm

theorem receive_connects_length (p : Inbound) :
    (c.receive g p).connects.length ≤ c.connects.length + 1 := by
  cases p with
  | connect m =>
    simp only [Channel.connects, Channel.receive, newDescriptors]
    split <;> simp
  | _ => exact Nat.le_succ _

namespace History

theorem answered (h : History g x c f) (hf : 9 < f.stage) (hr : ∀ y p, f ≠ .refuse y p)
    (hm : c.received.head? = some (.connect msg)) (ho : c.isOpen = true) : c.sent ≠ [] := by
  intro hs
  rcases (h.opening msg hm ho hs).2 with h | ⟨y, p, h⟩
  · omega
  · exact hr y p h

theorem quiet {c' : Channel} (h : History g x c f) (hr : c'.received = c.received)
    (hs : c'.sent = c.sent) (hc : c'.connects = c.connects)
    (ho : c'.isOpen = true → c.isOpen = true ∧ c'.past f' 9 = c.past f 9 ∧
      (f.stage ≤ 9 ∨ (∃ y p, f = .refuse y p) → f'.stage ≤ 9 ∨ ∃ y p, f' = .refuse y p)) :
    History g x c' f' where
  accepted ho' hp := by
    obtain ⟨hop, hpast, -⟩ := ho ho'
    rw [hs]
    exact h.accepted hop (hpast ▸ hp)
  connAck w hw := by rw [hr, hc]; exact h.connAck w (hs ▸ hw)
  first msg hm w hw := h.first msg (hr ▸ hm) w (hs ▸ hw)
  opening msg hm ho' he := by
    obtain ⟨hop, -, hf⟩ := ho ho'
    rw [hr]
    exact (h.opening msg (hr ▸ hm) hop (hs ▸ he)).imp_right hf
  unheard he := by rw [hs]; exact h.unheard (hr ▸ he)
  connects := by rw [hr, hc]; exact h.connects

theorem append {c' : Channel} {w : Write} (h : History g x c f) (hr : c'.received = c.received)
    (hs : c'.sent = c.sent ++ [w]) (hc : c'.connects = c.connects) (ho : c.isOpen = true)
    (hw : w.packet.isConnAck = true → w.source = .loop x ∧
      ∃ msg, c.received[w.request]? = some (.connect msg) ∧
        (w.packet.isAccepted = true → msg ∈ c.connects))
    (hf : ∀ msg, c.received.head? = some (.connect msg) → c.sent = [] →
      w.packet.isConnAck = true) (hne : c.received ≠ [])
    (hp : c'.past f' 9 ≠ [] → c.past f 9 ≠ [] ∨ w.packet.isAccepted = true) :
    History g x c' f' where
  accepted _ hp' := by
    rw [hs]
    rcases hp hp' with hp | hp
    · obtain ⟨v, hv, ha⟩ := h.accepted ho hp
      exact ⟨v, List.mem_append_left _ hv, ha⟩
    · exact ⟨w, by simp, hp⟩
  connAck v hv := by
    rw [hs, List.mem_append, List.mem_singleton] at hv
    rw [hr, hc]
    rcases hv with hv | rfl
    · exact h.connAck v hv
    · exact hw
  first msg hm v hv := by
    rw [hs, List.head?_append] at hv
    cases he : c.sent with
    | nil =>
      rw [he] at hv
      cases hv
      exact hf msg (hr ▸ hm) he
    | cons v' vs =>
      rw [he] at hv
      cases hv
      exact h.first msg (hr ▸ hm) v (by simp [he])
  opening _ _ _ he := by simp [hs] at he
  unheard he := absurd (hr ▸ he) hne
  connects := by rw [hr, hc]; exact h.connects

theorem append_late {c' : Channel} {w : Write} (h : History g x c f)
    (hr : c'.received = c.received) (hs : c'.sent = c.sent ++ [w]) (hc : c'.connects = c.connects)
    (ho : c.isOpen = true) (hw : w.packet.isConnAck = false) (hne : c.received ≠ [])
    (hf : 9 < f.stage) (hf' : ∀ y p, f ≠ .refuse y p) : History g x c' f' := by
  refine h.append hr hs hc ho (by simp [hw]) ?_ hne fun hpast => .inl ?_
  · intro msg hm he
    exact absurd he (h.answered hf hf' hm ho)
  · rw [Channel.past_of_lt hf]
    intro he
    simp [Channel.past, hc, he] at hpast

theorem receive (h : History g x c .idle) (p : Inbound) :
    History g x (c.receive g p) (channelRead g x c p) where
  accepted ho hp := by
    rw [receive_past p (by decide)] at hp
    exact h.accepted ho (by rwa [Channel.past_of_lt (by simp [Frame.stage])])
  connAck w hw hc := by
    obtain ⟨hs, msg, hr, hm⟩ := h.connAck w hw hc
    refine ⟨hs, msg, ?_, fun ha => receive_connects p (hm ha)⟩
    rw [Channel.receive, List.getElem?_append_left (List.getElem?_eq_some_iff.mp hr).1]
    exact hr
  first msg hm w hw := by
    cases he : c.received with
    | nil => simp [Channel.receive, h.unheard he] at hw
    | cons q qs => exact h.first msg (by simpa [Channel.receive, he] using hm) w hw
  opening msg hm ho he := by
    cases hr : c.received with
    | nil =>
      rw [Channel.receive, hr] at hm
      cases hm
      refine ⟨by simp [Channel.receive, hr], ?_⟩
      simp only [channelRead, processConnect]
      split
      · exact .inr ⟨_, _, rfl⟩
      · exact .inl (by simp [Frame.stage, ConnectLine.stage])
    | cons q qs =>
      have hm' : c.received.head? = some (.connect msg) := by
        simpa [Channel.receive, hr] using hm
      exact absurd he (h.answered (by decide) (by simp) hm' ho)
  unheard he := by simp [Channel.receive] at he
  connects := (receive_connects_length p).trans (by simpa [Channel.receive] using h.connects)

theorem own_write {p : MqttMessage} (h : History g x (s.channel x) (s.frame (.loop x)))
    (hr : (gateway g).Reachable s) (hf : (s.frame (.loop x)).Of (.loop x))
    (ho : (s.channel x).isOpen = true)
    (hn : next g s (.loop x) choice (s.frame (.loop x)) = some (.write x p, f)) :
    History g x ((s.exec (.loop x) (.write x p)).channel x) f := by
  have hg := reachable_registry hr
  have hlife := reachable_lifecycle hr x
  have hh := reachable_handles hr x
  have hrefs := hg.refs (.loop x)
  have hs : ((s.exec (.loop x) (.write x p)).channel x).sent =
      (s.channel x).sent ++ [⟨p, .loop x, (s.channel x).received.length - 1⟩] := by
    simp [State.exec_sent, ho, State.request]
  have last : ∀ m, (s.channel x).received.getLast? = some m →
      (s.channel x).received[(s.channel x).received.length - 1]? = some m ∧
        (s.channel x).received ≠ [] := fun m hm =>
    ⟨by rw [← List.getLast?_eq_getElem?]; exact hm, by rintro he; simp [he] at hm⟩
  have other : p.isConnAck = false → (s.channel x).received ≠ [] → 9 < (s.frame (.loop x)).stage →
      (∀ y p, s.frame (.loop x) ≠ .refuse y p) →
      History g x ((s.exec (.loop x) (.write x p)).channel x) f := fun hp hne =>
    h.append_late (by simp) hs (by simp) ho hp hne
  generalize hf₀ : s.frame (.loop x) = f₀ at *
  cases next_statement hn with
  | reply =>
    obtain ⟨hp, m, hm, -⟩ := hh
    exact other hp.1 (last _ hm).2 (by simp [Frame.stage]) (by simp)
  | pubAck =>
    exact other rfl (last _ hh.1).2 (by simp [Frame.stage]) (by simp)
  | push =>
    obtain ⟨msg, hm, -⟩ := hh
    exact other rfl (last _ hm).2 (by simp [Frame.stage]) (by simp)
  | refuse =>
    obtain ⟨msg, code, hm, hc, rfl⟩ := hh
    refine h.append (by simp) hs (by simp) ho (fun _ => ⟨rfl, msg, (last _ hm).1, ?_⟩)
      (fun _ _ _ => rfl) (last _ hm).2 fun hp => .inl ?_
    · intro ha
      exact absurd (connAck_isAccepted.mp ha) (refusal_ne_accepted hc)
    · simpa [Channel.past, Frame.stage] using hp
  | connAck =>
    obtain ⟨hlast, -⟩ := hlife.connecting _ _ _ rfl
    exact h.append (by simp) hs (by simp) ho
      (fun _ => ⟨rfl, _, (last _ hh).1, fun _ => List.mem_of_getLast? hlast⟩)
      (fun _ _ _ => rfl) (last _ hh).2 fun _ => .inr rfl
  | evictWrite =>
    -- a previous descriptor of the own channel is older than the one just built
    refine h.append (by simp) hs (by simp) ho (fun hc => by cases hc) (fun msg hm he => ?_)
      (last _ hh).2 fun hp => .inl ?_
    · obtain ⟨-, hne, hp⟩ := hrefs
      have hlen := h.connects
      rw [(h.opening msg hm ho he).1] at hlen
      have hd := published_of_stage (hf₀ ▸ hlife) hf₀ (by simp [ConnectLine.stage])
      exact absurd (hp.eq hd hf.1.symm hlen) hne
    · simpa [Channel.past, Frame.stage, ConnectLine.stage] using hp
  | messageWrite => exact hf.elim

theorem next_stage_nine (hf : f.Of (.loop x)) (h : next g s (.loop x) choice f = some (i, f'))
    (hs : ∀ msg d, f = .connect msg d .sendAck → s.descriptorState d = some .disconnected)
    (hi : ∀ p, i ≠ .write x p) :
    (f'.stage ≤ 9 ↔ f.stage ≤ 9) ∧ ∀ y p, f ≠ .refuse y p := by
  cases next_statement h
  case connAck => exact absurd rfl (hf.1 ▸ hi _)
  case refuse => exact absurd rfl (hf ▸ hi _)
  case sendAckFailed hd => exact absurd (hs _ _ rfl) hd
  all_goals simp [Frame.stage, ConnectLine.stage, pushReceived, thrown]

theorem local_invariant : LocalInvariant g System.always x (History g x) where
  tasks ts h := ⟨h.accepted, h.connAck, h.first, h.opening, h.unheard, h.connects⟩
  init := by
    refine ⟨?_, ?_, ?_, ?_, ?_, ?_⟩ <;> simp [Channel.init, Channel.connects, Channel.past]
  read p _ _ _ h := h.receive p
  lose h := h.quiet rfl rfl rfl fun ho => by cases ho
  readerIdle {c} h _ := h.quiet rfl rfl rfl fun ho => ⟨ho, by
    rw [Channel.past_of_lt (by simp [Lifecycle.stage_eq (channelInactive_loses ..).quiet.1])]
    rfl, by simp [Frame.stage]⟩
  exceptionCaught h := h.quiet rfl rfl rfl fun ho => ⟨ho, rfl, by simp [Frame.stage]⟩
  peerClose h := h.quiet rfl rfl rfl fun ho => by cases ho
  task {s} t k ks hr _ hk h := by
    have hg := reachable_registry hr
    obtain ⟨d, hd, rfl⟩ := hg.posted x t (by simp [hk])
    have hne : (s.channel d.channel).received ≠ [] := by
      intro he
      have := h.connects
      rw [he] at this
      exact hd.connects_ne_nil (List.length_eq_zero_iff.mp (by simpa using this))
    cases k with
    | close => exact h.quiet rfl rfl rfl fun ho => by cases ho
    | write w =>
      obtain ⟨-, hw⟩ := hg.packets d.channel t w (by simp [hk])
      cases ho : (s.channel d.channel).isOpen with
      | false =>
        refine h.quiet (by simp) (by simp [ho]) (by simp) fun ho' => ?_
        simp [ho] at ho'
      | true =>
        have hs : ((s.channel d.channel).run (.write w)).sent =
            (s.channel d.channel).sent ++ [w] := by simp [ho]
        exact h.append_late (by simp) hs (by simp) ho hw.isConnAck hne (by decide) (by simp)
  run {s choice i f} hr _ hf hn h := by
    by_cases hw : ∃ p, i = .write x p ∧ (s.channel x).isOpen = true
    · obtain ⟨p, rfl, ho⟩ := hw
      exact h.own_write hr hf ho hn
    · have hs : ((s.exec (.loop x) i).channel x).sent = (s.channel x).sent := by
        rw [State.exec_sent]
        cases i with
        | write y p =>
          simp only
          rw [if_neg]
          rintro ⟨rfl, -, ho⟩
          exact hw ⟨p, rfl, ho⟩
        | _ => rfl
      refine h.quiet (by simp) hs (by simp) fun ho => ?_
      have ho' := State.isOpen_of_exec ho
      obtain ⟨h₁, h₂⟩ := next_stage_nine hf hn
        (fun msg d he => (reachable_lifecycle hr x).sendAck he) fun p hi => hw ⟨p, hi, ho'⟩
      refine ⟨ho', ?_, ?_⟩
      · simp only [Channel.past, h₁, exec_connects]
      · rintro (h₃ | ⟨y, p, he⟩)
        · exact .inl (h₁.mpr h₃)
        · exact absurd he (h₂ y p)

end History

theorem reachable_history (h : (gateway g).Reachable s) (x : ChannelId) :
    History g x (s.channel x) (s.frame (.loop x)) := History.local_invariant.reachable h

end ImProxy
