import ImProxy.Invariant.Local

/-! # The life of a channel

The attributes, the pipeline and the descriptors of a channel tell how far its
CONNECTs have come. The first one that passes all checks runs to the end. Each
later one finds the auto-flusher in the pipeline, throws, and closes the channel,
so a channel that is open between two handlers has at most one descriptor.
-/

set_option autoImplicit false

namespace ImProxy

open Concurrent Transition

variable {g : Gateway} {s s' : State} {t u : Thread} {choice : Choice} {f f' : Frame} {i : Instr}
  {x y : ChannelId} {a : Action} {d : Descriptor} {c : Channel} {msg : MqttConnectMessage}
  {l : ConnectLine}

/-! ## Checks -/

/-- A CONNECT that passes every check of `processConnect`. -/
structure Passes (g : Gateway) (msg : MqttConnectMessage) : Prop where
  clientIdentifier : ∃ c, msg.clientIdentifier = some c ∧ c ≠ ""
  version : msg.version = 3 ∨ msg.version = 4
  isWillFlag : msg.isWillFlag = true
  willTopic : ∃ v, msg.willTopic = some v ∧ v ≠ ""
  willMessage : ∃ v, msg.willMessage = some v ∧ v ≠ ""
  userName : ∃ v, msg.userName = some v ∧ v ≠ "" ∧ g.authenticate msg.clientId v = true

theorem hasLength_iff {o : Option String} : hasLength o = true ↔ ∃ v, o = some v ∧ v ≠ "" := by
  cases o <;> simp [hasLength]

theorem isBadProtocol_eq_none : isBadProtocol msg = none ↔
    (msg.version = 3 ∨ msg.version = 4) ∧ msg.isWillFlag = true ∧
      hasLength msg.willTopic = true ∧ hasLength msg.willMessage = true := by
  by_cases hv : msg.version = 3 ∨ msg.version = 4
  · unfold isBadProtocol
    rw [if_neg (by simp only [MqttVersion.protocolLevel]; omega)]
    cases msg.isWillFlag <;> cases hasLength msg.willTopic <;> cases hasLength msg.willMessage <;>
      simp [hv]
  · unfold isBadProtocol
    rw [if_pos (by simp only [MqttVersion.protocolLevel]; omega)]
    simp [hv]

theorem refusal_eq_none : refusal g msg = none ↔ Passes g msg := by
  have hid : ∀ c, msg.clientIdentifier = some c → msg.clientId = c := fun c h => by
    simp [MqttConnectMessage.clientId, h]
  constructor
  · intro h
    have hc : hasLength msg.clientIdentifier = true := by
      cases hc : hasLength msg.clientIdentifier with
      | true => rfl
      | false => simp [refusal, hc] at h
    have hb : isBadProtocol msg = none := by
      cases hb : isBadProtocol msg with
      | none => rfl
      | some code => simp [refusal, hc, hb] at h
    have hl : login g msg = true := by
      cases hl : login g msg with
      | true => rfl
      | false => simp [refusal, hc, hb, hl] at h
    obtain ⟨c, hc, hne⟩ := hasLength_iff.mp hc
    obtain ⟨hv, hw, ht, hm⟩ := isBadProtocol_eq_none.mp hb
    refine ⟨⟨c, hc, hne⟩, hv, hw, hasLength_iff.mp ht, hasLength_iff.mp hm, ?_⟩
    cases hu : msg.userName with
    | none => simp [login, hc, hu, allowAnonymous] at hl
    | some v =>
      have hv : v ≠ "" := by
        rintro rfl
        simp [login, hc, hu, hne, allowAnonymous] at hl
      exact ⟨v, rfl, hv, by simpa [login, hc, hu, hne, hv, hid c hc] using hl⟩
  · rintro ⟨⟨c, hc, hne⟩, hv, hw, ht, hm, v, hu, hv', ha⟩
    have hb := isBadProtocol_eq_none.mpr ⟨hv, hw, hasLength_iff.mpr ht, hasLength_iff.mpr hm⟩
    have hl : login g msg = true := by
      rw [hid c hc] at ha
      simp [login, hc, hu, hne, hv', ha]
    simp [refusal, hasLength_iff.mpr ⟨c, hc, hne⟩, hb, hl]

theorem Passes.clientId_ne (h : Passes g msg) : msg.clientId ≠ "" := by
  obtain ⟨c, hc, hne⟩ := h.clientIdentifier
  simpa [MqttConnectMessage.clientId, hc] using hne

/-! ## Stages -/

/-- The number of the statement in `processConnect`; a rollback counts as past its end. -/
def ConnectLine.stage : ConnectLine → ℕ
  | .get => 0
  | .put _ => 1
  | .evictWrite _ => 2
  | .evictAbort _ => 3
  | .keepAlive => 4
  | .cleanSession => 5
  | .clientID => 6
  | .idleTime => 7
  | .sendAck => 8
  | .connAck => 9
  | .republish => 10
  | .autoFlusher => 11
  | .established => 12
  | .app => 13
  | .imId => 14
  | .token => 15
  | .rollbackClose _ => 16
  | .rollbackRemove _ => 16

def ConnectLine.state (l : ConnectLine) : ConnectionState :=
  if l.stage ≤ 8 then .disconnected
  else if l.stage ≤ 10 then .sendAck
  else if l.stage ≤ 12 then .messagesRepublished
  else .established

def Frame.stage : Frame → ℕ
  | .connect _ _ l => l.stage
  | _ => 16

@[simp] theorem thrown_stage (t : Thread) : (thrown t).stage = 16 := by cases t <;> rfl

/-- Frames from which the handler cannot end without closing the channel, if the channel had
a descriptor before. -/
def Frame.doomed : Frame → Bool
  | .refuse _ _ => true
  | .close _ => true
  | .connectionLost _ _ => true
  | .inactiveClose _ => true
  | .connect _ _ l => l.stage ≤ 11
  | _ => false

namespace Channel

/-- The CONNECTs that a descriptor was built for. -/
def connects (c : Channel) : List MqttConnectMessage := c.descriptors.map DescriptorCell.connect

/-- Those among them whose handling has come past a stage. -/
def past (c : Channel) (f : Frame) (k : ℕ) : List MqttConnectMessage :=
  if f.stage ≤ k then c.connects.dropLast else c.connects

theorem past_of_le {k : ℕ} (h : f.stage ≤ k) : c.past f k = c.connects.dropLast := if_pos h

theorem past_of_lt {k : ℕ} (h : k < f.stage) : c.past f k = c.connects :=
  if_neg (Nat.not_le.mpr h)

theorem past_connect {c' : Channel} {l l' : ConnectLine} (hc : c'.connects = c.connects)
    (hle : l.stage ≤ l'.stage) (k : ℕ) : c'.past (.connect msg d l') k =
      if l.stage ≤ k ∧ k < l'.stage then c.connects else c.past (.connect msg d l) k := by
  by_cases h₁ : l'.stage ≤ k
  · rw [past_of_le h₁, if_neg (by omega), past_of_le (hle.trans h₁), hc]
  · by_cases h₂ : l.stage ≤ k
    · rw [past_of_lt (Nat.lt_of_not_le h₁), if_pos (by omega), hc]
    · rw [past_of_lt (Nat.lt_of_not_le h₁), if_neg (by omega), past_of_lt (Nat.lt_of_not_le h₂), hc]

@[simp] theorem assign_connects (c : Channel) (n : ℕ) (st : ConnectionState) :
    (c.assign n st).connects = c.connects := by
  simp only [connects, assign]
  apply List.ext_getElem? 
  intro k
  simp only [List.getElem?_map, List.getElem?_modify]
  cases c.descriptors[k]? <;> simp
  split_ifs <;> rfl

@[simp] theorem run_connects (c : Channel) (k : Task) : (c.run k).connects = c.connects := by
  simp [connects]

theorem state?_assign (c : Channel) (n : ℕ) (st : ConnectionState) :
    (c.assign n st).state? n = (c.state? n).map fun _ => st := by
  simp only [state?, assign, List.getElem?_modify]
  cases c.descriptors[n]? <;> simp

end Channel

@[simp] theorem exec_connects : ((s.exec t i).channel y).connects = (s.channel y).connects := by
  cases i <;> simp only [State.exec, State.issue, State.update_channel] <;> split_ifs <;>
    simp [Channel.connects, Channel.post]
  next d st _ => exact Channel.assign_connects (s.channel y) d.serial st

/-! ## Handlers other than `processConnect` -/

def Frame.isConnect : Frame → Bool
  | .connect _ _ _ => true
  | _ => false

/-- Operations on the own state of a channel that only `processConnect` executes. -/
def Instr.isSetup : Instr → Bool
  | .attr _ _ => true
  | .pipeline _ _ => true
  | .assignState _ _ => true
  | _ => false

theorem Frame.isConnect_iff : f.isConnect = true ↔ ∃ msg d l, f = .connect msg d l := by
  cases f <;> simp [isConnect]

theorem Frame.Loses.quiet (h : f.Loses x) : f.isConnect = false ∧ f.doomed = true := by
  cases h <;> exact ⟨rfl, rfl⟩

theorem next_quiet (hf : f.Of (.loop x)) (hc : f.isConnect = false)
    (h : next g s (.loop x) choice f = some (i, f')) :
    i.isSetup = false ∧ f'.isConnect = false ∧
      (f.doomed = true → f'.doomed = true ∨ i = .close x ∨ i = .closeLost x) := by
  cases next_statement h <;>
    simp_all [Frame.Of, Instr.isSetup, Frame.isConnect, Frame.doomed, pushReceived, thrown]

/-- How far the CONNECTs of a channel have come. -/
structure Lifecycle (g : Gateway) (x : ChannelId) (c : Channel) (f : Frame) : Prop where

  passed : ∀ msg ∈ c.connects, Passes g msg

  connecting : ∀ msg d l, f = .connect msg d l → c.connects.getLast? = some msg ∧
    c.connects.length = d.serial + 1 ∧ c.state? d.serial = some l.state ∧ l.stage < 16 ∧
    d = newDescriptor msg x d.serial

  clientID : c.attributes.clientID =
    (c.past f 6).getLast?.map MqttConnectMessage.clientId

  flusher : "autoFlusher" ∈ c.pipeline.names ↔ c.past f 11 ≠ []

  base : "idleEventHandler" ∈ c.pipeline.names

  single : f.doomed = false → c.isOpen = true → c.connects.length ≤ 1

  late : 12 ≤ f.stage → f.stage < 16 → c.connects.length = 1

  app : c.past f 13 ≠ [] → c.attributes.app.isSome

  imId : c.past f 14 ≠ [] → c.attributes.imId.isSome

theorem receive_past (p : Inbound) {k : ℕ} (hk : k < 16) :
    (c.receive g p).past (channelRead g x c p) k = c.connects := by
  cases p with
  | connect msg =>
    simp only [channelRead, processConnect]
    cases hm : refusal g msg with
    | none => simp [Channel.past, Channel.connects, Frame.stage, ConnectLine.stage,
        Channel.receive, newDescriptors, hm]
    | some code => simp [Channel.past, Channel.connects, Frame.stage, Channel.receive,
        newDescriptors, hm, Nat.not_le.mpr hk]
  | publish msg =>
    simp only [channelRead, processPublish]
    split <;> exact Channel.past_of_lt hk
  | disconnect =>
    simp only [channelRead, processDisconnect]
    split <;> exact Channel.past_of_lt hk
  | _ => exact Channel.past_of_lt hk

namespace Lifecycle

theorem stage_eq (h : f.isConnect = false) : f.stage = 16 := by
  cases f <;> first | rfl | cases h

theorem quiet {c' : Channel} (h : Lifecycle g x c f)
    (hid : c'.attributes.clientID = c.attributes.clientID)
    (happ : c'.attributes.app = c.attributes.app) (him : c'.attributes.imId = c.attributes.imId)
    (hp : c'.pipeline = c.pipeline) (hd : c'.descriptors = c.descriptors)
    (hf : 15 ≤ f.stage) (hf' : f'.isConnect = false)
    (ho : f'.doomed = false → c'.isOpen = true → f.doomed = false ∧ c.isOpen = true) :
    Lifecycle g x c' f' := by
  have hc : c'.connects = c.connects := by simp [Channel.connects, hd]
  have past : ∀ k < 15, c'.past f' k = c.past f k := fun k hk => by
    rw [Channel.past_of_lt (by rw [stage_eq hf']; omega), Channel.past_of_lt (by omega), hc]
  refine ⟨hc ▸ h.passed, ?_, ?_, ?_, hp ▸ h.base, ?_, ?_, ?_, ?_⟩
  · rintro msg d l rfl; cases hf'
  · rw [hid, past 6 (by decide)]; exact h.clientID
  · rw [hp, past 11 (by decide)]; exact h.flusher
  · intro hd' hop; rw [hc]; exact h.single (ho hd' hop).1 (ho hd' hop).2
  · intro _ hlt; rw [stage_eq hf'] at hlt; omega
  · rw [happ, past 13 (by decide)]; exact h.app
  · rw [him, past 14 (by decide)]; exact h.imId

theorem exec_quiet (hi : i.isSetup = false) :
    ((s.exec t i).channel x).attributes = (s.channel x).attributes ∧
      ((s.exec t i).channel x).pipeline = (s.channel x).pipeline ∧
      ((s.exec t i).channel x).descriptors = (s.channel x).descriptors := by
  rw [State.exec_attributes, State.exec_pipeline, State.exec_descriptors]
  cases i <;> first | exact ⟨rfl, rfl, rfl⟩ | cases hi

theorem connect (h : Lifecycle g x c .idle) (hm : refusal g msg = none) :
    Lifecycle g x (c.receive g (.connect msg))
      (.connect msg (newDescriptor msg x c.descriptors.length) .get) := by
  have hn : newDescriptors g c (.connect msg) = c.descriptors ++ [⟨msg, .disconnected⟩] := by
    simp [newDescriptors, hm]
  have hc : (c.receive g (.connect msg)).connects = c.connects ++ [msg] := by
    simp [Channel.connects, Channel.receive, hn]
  have past : ∀ k, (c.receive g (.connect msg)).past (.connect msg
      (newDescriptor msg x c.descriptors.length) .get) k = c.connects := fun k => by
    simp [Channel.past, Frame.stage, ConnectLine.stage, hc]
  have idle : ∀ k < 16, c.past .idle k = c.connects := fun k hk => by
    simp [Channel.past, Frame.stage, Nat.not_le.mpr hk]
  have hlen : (c.receive g (.connect msg)).connects.length = c.descriptors.length + 1 := by
    rw [hc, List.length_append, Channel.connects, List.length_map]
    rfl
  refine ⟨?_, ?_, ?_, ?_, h.base, ?_, ?_, ?_, ?_⟩
  · intro m hm'
    rw [hc, List.mem_append, List.mem_singleton] at hm'
    rcases hm' with hm' | rfl
    · exact h.passed m hm'
    · exact refusal_eq_none.mp hm
  · rintro _ _ _ ⟨⟩
    refine ⟨by simp [hc], hlen, ?_, by decide, rfl⟩
    simp [Channel.state?, Channel.receive, hn, newDescriptor, ConnectLine.state, ConnectLine.stage]
  · rw [past, ← idle 6 (by decide)]; exact h.clientID
  · rw [past, ← idle 11 (by decide)]; exact h.flusher
  · intro hd; simp [Frame.doomed, ConnectLine.stage] at hd
  · intro hs; simp [Frame.stage, ConnectLine.stage] at hs
  · rw [past, ← idle 13 (by decide)]; exact h.app
  · rw [past, ← idle 14 (by decide)]; exact h.imId

/-- What a statement of `processConnect` has to do to the channel for its stage to be right. -/
theorem advance {c' : Channel} {l' : ConnectLine} (h : Lifecycle g x c (.connect msg d l))
    (hc : c'.connects = c.connects) (hst : c'.state? d.serial = some l'.state)
    (hle : l.stage ≤ l'.stage) (hlt : l'.stage < 16)
    (hid : c'.attributes.clientID =
      if l.stage ≤ 6 ∧ 6 < l'.stage then some msg.clientId else c.attributes.clientID)
    (hfl : "autoFlusher" ∈ c'.pipeline.names ↔
      l.stage ≤ 11 ∧ 11 < l'.stage ∨ "autoFlusher" ∈ c.pipeline.names)
    (hnew : l.stage ≤ 11 → 11 < l'.stage → "autoFlusher" ∉ c.pipeline.names)
    (hb : "idleEventHandler" ∈ c'.pipeline.names)
    (happ : c.attributes.app.isSome → c'.attributes.app.isSome)
    (happ' : l.stage ≤ 13 → 13 < l'.stage → c'.attributes.app.isSome)
    (him : c.attributes.imId.isSome → c'.attributes.imId.isSome)
    (him' : l.stage ≤ 14 → 14 < l'.stage → c'.attributes.imId.isSome) :
    Lifecycle g x c' (.connect msg d l') := by
  obtain ⟨hlast, hlen, -, -, hd⟩ := h.connecting _ _ _ rfl
  have hne : c.connects ≠ [] := by rintro he; simp [he] at hlast
  have first : l.stage ≤ 11 → 11 < l'.stage → c.connects.length = 1 := by
    intro h₁ h₂
    have he := (not_congr h.flusher).mp (hnew h₁ h₂)
    rw [not_not, Channel.past, if_pos (by exact h₁), ← List.length_eq_zero_iff,
      List.length_dropLast] at he
    have := List.length_pos_iff.mpr hne
    omega
  have late : 12 ≤ l'.stage → c.connects.length = 1 := by
    intro h₁
    by_cases h₂ : l.stage ≤ 11
    · exact first h₂ h₁
    · exact h.late (by simp only [Frame.stage]; omega) (by simp only [Frame.stage]; omega)
  refine ⟨hc ▸ h.passed, ?_, ?_, ?_, hb, ?_, ?_, ?_, ?_⟩
  · rintro _ _ _ ⟨⟩
    exact ⟨hc ▸ hlast, hc ▸ hlen, hst, hlt, hd⟩
  · rw [hid, Channel.past_connect hc hle]
    split_ifs
    · rw [hlast]; rfl
    · exact h.clientID
  · rw [hfl, Channel.past_connect hc hle, h.flusher]
    split_ifs with hk
    · simp [hk, hne]
    · simp [hk]
  · intro hd' _
    rw [hc]
    simp only [Frame.doomed, decide_eq_false_iff_not, not_le] at hd'
    exact (late hd').le
  · intro h₁ _
    rw [hc]
    exact late h₁
  · rw [Channel.past_connect hc hle]
    split_ifs with hk
    · exact fun _ => happ' hk.1 hk.2
    · exact fun hp => happ (h.app hp)
  · rw [Channel.past_connect hc hle]
    split_ifs with hk
    · exact fun _ => him' hk.1 hk.2
    · exact fun hp => him (h.imId hp)

theorem abandon (h : Lifecycle g x c (.connect msg d .autoFlusher))
    (hp : "autoFlusher" ∈ c.pipeline.names) : Lifecycle g x c (.close x) := by
  obtain ⟨hlast, -, -, -, -⟩ := h.connecting _ _ _ rfl
  have hne : c.connects ≠ [] := by rintro he; simp [he] at hlast
  have drop := h.flusher.mp hp
  refine ⟨h.passed, by rintro _ _ _ ⟨⟩, ?_, ?_, h.base, ?_, ?_, ?_, ?_⟩
  · exact h.clientID
  · exact iff_of_true hp hne
  · intro hd; cases hd
  · intro _ hlt; simp [Frame.stage] at hlt
  · exact fun _ => h.app drop
  · exact fun _ => h.imId drop

theorem advance_quiet {l' : ConnectLine} (h : Lifecycle g x (s.channel x) (.connect msg d l))
    (hi : i.isSetup = false) (hle : l.stage ≤ l'.stage) (hlt : l'.stage < 16)
    (hst : l'.state = l.state)
    (hk : ∀ k, k = 6 ∨ k = 11 ∨ k = 13 ∨ k = 14 → l.stage ≤ k → l'.stage ≤ k) :
    Lifecycle g x ((s.exec t i).channel x) (.connect msg d l') := by
  obtain ⟨ha, hp, hd⟩ := exec_quiet (s := s) (t := t) (x := x) hi
  obtain ⟨-, -, hs, -, -⟩ := h.connecting _ _ _ rfl
  have not_both : ∀ k, k = 6 ∨ k = 11 ∨ k = 13 ∨ k = 14 → ¬(l.stage ≤ k ∧ k < l'.stage) :=
    fun k hk' ⟨h₁, h₂⟩ => absurd (hk k hk' h₁) (by omega)
  refine h.advance exec_connects ?_ hle hlt ?_ ?_ ?_ ?_ ?_ ?_ ?_ ?_
  · rw [Channel.state?, hd, hst]; exact hs
  · rw [ha, if_neg (not_both 6 (by simp))]
  · rw [hp]; simp [not_both 11 (by simp)]
  · exact fun h₁ h₂ => absurd ⟨h₁, h₂⟩ (not_both 11 (by simp))
  · rw [hp]; exact h.base
  · rw [ha]; exact id
  · exact fun h₁ h₂ => absurd ⟨h₁, h₂⟩ (not_both 13 (by simp))
  · rw [ha]; exact id
  · exact fun h₁ h₂ => absurd ⟨h₁, h₂⟩ (not_both 14 (by simp))

theorem advance_attr {b : Attribute} {l' : ConnectLine}
    (h : Lifecycle g x (s.channel x) (.connect msg d l)) (hlt : l'.stage < 16)
    (hl : l'.stage = l.stage + 1) (hst : l'.state = l.state) (h11 : l.stage ≠ 11)
    (hid : ((s.channel x).attributes.set b).clientID =
      if l.stage = 6 then some msg.clientId else (s.channel x).attributes.clientID)
    (happ : (s.channel x).attributes.app.isSome → ((s.channel x).attributes.set b).app.isSome)
    (happ' : l.stage = 13 → ((s.channel x).attributes.set b).app.isSome)
    (him : (s.channel x).attributes.imId.isSome → ((s.channel x).attributes.set b).imId.isSome)
    (him' : l.stage = 14 → ((s.channel x).attributes.set b).imId.isSome) :
    Lifecycle g x ((s.exec t (.attr x b)).channel x) (.connect msg d l') := by
  obtain ⟨-, -, hs, -, -⟩ := h.connecting _ _ _ rfl
  simp only [State.exec, State.update_channel_self]
  refine h.advance rfl (hst ▸ hs) (by omega) hlt ?_ ?_ ?_ h.base happ ?_ him ?_
  · rw [hid, hl]
    split_ifs <;> first | rfl | omega
  · exact ⟨.inr, fun h' => h'.resolve_left (by omega)⟩
  · intro _ _; omega
  · intro _ _; exact happ' (by omega)
  · intro _ _; exact him' (by omega)

theorem advance_state {st : ConnectionState} {l' : ConnectLine}
    (h : Lifecycle g x (s.channel x) (.connect msg d l)) (hx : d.channel = x)
    (hlt : l'.stage < 16) (hl : l'.stage = l.stage + 1) (hst : l'.state = st)
    (hk : l.stage ≠ 6 ∧ l.stage ≠ 11 ∧ l.stage ≠ 13 ∧ l.stage ≠ 14) :
    Lifecycle g x ((s.exec t (.assignState d st)).channel x) (.connect msg d l') := by
  subst hx
  obtain ⟨-, -, hs, -, -⟩ := h.connecting _ _ _ rfl
  simp only [State.exec, State.update_channel_self]
  refine h.advance (Channel.assign_connects ..) ?_ (by omega) hlt ?_ ?_ ?_ h.base id ?_ id ?_
  · rw [Channel.state?_assign, hs, hst]; rfl
  · rw [if_neg (by omega)]; rfl
  · exact ⟨.inr, fun h' => h'.resolve_left (by omega)⟩
  all_goals intro _ _; omega

theorem advance_pipeline {p : Pipeline} {l' : ConnectLine}
    (h : Lifecycle g x (s.channel x) (.connect msg d l)) (hlt : l'.stage < 16)
    (hl : l'.stage = l.stage + 1) (hst : l'.state = l.state)
    (hk : l.stage ≠ 6 ∧ l.stage ≠ 13 ∧ l.stage ≠ 14)
    (hfl : "autoFlusher" ∈ p.names ↔
      l.stage = 11 ∨ "autoFlusher" ∈ (s.channel x).pipeline.names)
    (hnew : l.stage = 11 → "autoFlusher" ∉ (s.channel x).pipeline.names)
    (hb : "idleEventHandler" ∈ p.names) :
    Lifecycle g x ((s.exec t (.pipeline x p)).channel x) (.connect msg d l') := by
  obtain ⟨-, -, hs, -, -⟩ := h.connecting _ _ _ rfl
  simp only [State.exec, State.update_channel_self]
  refine h.advance rfl (hst ▸ hs) (by omega) hlt ?_ ?_ ?_ hb id ?_ id ?_
  · rw [if_neg (by omega)]
  · rw [hfl]
    exact or_congr_left ⟨fun _ => by omega, fun _ => by omega⟩
  · intro _ _; exact hnew (by omega)
  all_goals intro _ _; omega

theorem run_connect (h : Lifecycle g x (s.channel x) (.connect msg d l)) (hx : d.channel = x)
    (hn : nextConnect s msg d g l = (i, f')) :
    Lifecycle g x ((s.exec (.loop x) i).channel x) f' := by
  subst hx
  obtain ⟨hlast, -, hst, hlt, -⟩ := h.connecting _ _ _ rfl
  have hp : Passes g msg := h.passed msg (List.mem_of_getLast? hlast)
  have hstate : s.descriptorState d = some l.state := hst
  cases l <;> simp only [nextConnect] at hn
  case get | evictWrite | evictAbort | connAck =>
    cases hn
    exact h.advance_quiet rfl (by simp [ConnectLine.stage]) (by simp [ConnectLine.stage]) rfl
      (by simp [ConnectLine.stage])
  case put previous =>
    cases hn
    cases previous <;>
      exact h.advance_quiet rfl (by simp [ConnectLine.stage]) (by simp [ConnectLine.stage]) rfl
        (by simp [ConnectLine.stage])
  case keepAlive | cleanSession | clientID =>
    cases hn
    exact h.advance_attr (by decide) rfl rfl (by decide) rfl id (by simp [ConnectLine.stage]) id
      (by simp [ConnectLine.stage])
  case app =>
    cases hn
    obtain ⟨v, hv, -⟩ := hp.willTopic
    have hs : (some v).isSome = true := rfl
    exact h.advance_attr (by decide) rfl rfl (by decide) rfl (fun _ => hv ▸ hs)
      (fun _ => hv ▸ hs) id (by simp [ConnectLine.stage])
  case imId =>
    cases hn
    obtain ⟨v, hv, -⟩ := hp.willMessage
    have hs : (some v).isSome = true := rfl
    exact h.advance_attr (by decide) rfl rfl (by decide) rfl id (by simp [ConnectLine.stage])
      (fun _ => hv ▸ hs) (fun _ => hv ▸ hs)
  case token =>
    cases hn
    simp only [State.exec, State.update_channel_self]
    exact h.quiet rfl rfl rfl rfl rfl (by simp [Frame.stage, ConnectLine.stage]) rfl
      fun _ ho => ⟨rfl, ho⟩
  case idleTime =>
    obtain ⟨q, hq, hmem⟩ := Pipeline.setIdleTime_ok (msg.keepAliveTimeSeconds * 3 / 2)
      (s.channel d.channel).pipeline
    rw [hq] at hn
    cases hn
    exact h.advance_pipeline (by decide) rfl rfl (by decide)
      ((hmem _ (by decide)).trans (by simp [ConnectLine.stage])) (by simp [ConnectLine.stage])
      ((hmem _ (by decide)).mpr h.base)
  case autoFlusher =>
    split at hn <;> cases hn
    next q hq =>
      obtain ⟨hnew, hmem⟩ := Pipeline.setupAutoFlusher_ok hq
      exact h.advance_pipeline (by decide) rfl rfl (by decide)
        ((hmem _).trans (by simp [ConnectLine.stage])) (fun _ => hnew) ((hmem _).mpr (.inr h.base))
    next e he => exact h.abandon (Pipeline.setupAutoFlusher_error he)
  case sendAck | republish | established =>
    rcases assignState_eq hn with ⟨_, rfl, rfl⟩ | ⟨hne, _⟩
    · exact h.advance_state rfl (by decide) rfl rfl (by decide)
    · exact absurd hstate hne
  case rollbackClose | rollbackRemove => simp [ConnectLine.stage] at hlt

/-- The life of a channel is what its event loop makes of it. -/
theorem local_invariant : LocalInvariant g System.always x (Lifecycle g x) where
  tasks ts h := ⟨h.passed, h.connecting, h.clientID, h.flusher, h.base, h.single, h.late, h.app,
    h.imId⟩
  init := by
    refine ⟨by simp [Channel.init, Channel.connects], by simp, ?_, ?_, ?_, ?_, ?_, ?_, ?_⟩
    · simp [Channel.init, Channel.past, Channel.connects]
    · cases g.transport x <;> simp [Channel.init, Channel.past, Channel.connects] <;> decide
    · simp only [Channel.init]
      cases g.transport x <;> decide
    · simp [Channel.init, Channel.connects]
    · intro _ hlt; simp [Frame.stage] at hlt
    · simp [Channel.init, Channel.past, Channel.connects]
    · simp [Channel.init, Channel.past, Channel.connects]
  read p _ _ _ h := by
    cases p with
    | connect msg =>
      simp only [channelRead, processConnect]
      cases hm : refusal g msg with
      | none => exact h.connect hm
      | some code =>
        exact h.quiet rfl rfl rfl rfl (by simp [Channel.receive, newDescriptors, hm]) (by decide)
          rfl fun hd => by cases hd
    | publish msg =>
      refine h.quiet rfl rfl rfl rfl rfl (by decide) ?_ fun _ ho => ⟨rfl, ho⟩
      simp only [channelRead, processPublish]
      split <;> rfl
    | disconnect =>
      refine h.quiet rfl rfl rfl rfl rfl (by decide) ?_ fun _ ho => ⟨rfl, ho⟩
      simp only [channelRead, processDisconnect]
      split <;> rfl
    | _ => exact h.quiet rfl rfl rfl rfl rfl (by decide) rfl fun _ ho => ⟨rfl, ho⟩
  lose h := h.quiet rfl rfl rfl rfl rfl (by decide) (channelInactive_loses ..).quiet.1
    fun hd => by simp [(channelInactive_loses ..).quiet.2] at hd
  readerIdle h _ := h.quiet rfl rfl rfl rfl rfl (by decide) (channelInactive_loses ..).quiet.1
    fun hd => by simp [(channelInactive_loses ..).quiet.2] at hd
  exceptionCaught h := h.quiet rfl rfl rfl rfl rfl (by decide) rfl fun hd => by cases hd
  peerClose h := h.quiet rfl rfl rfl rfl rfl (by decide) rfl fun _ ho => by cases ho
  task t k ks _ _ _ h := by
    refine h.quiet (by simp) (by simp) (by simp) (by simp) (by simp) (by decide) rfl
      fun hd ho => ⟨hd, ?_⟩
    cases k with
    | write w => simpa using ho
    | close => cases ho
  run {s choice i f} hr _ hf hn h := by
    cases hc : (s.frame (.loop x)).isConnect with
    | true =>
      obtain ⟨msg, d, l, he⟩ := Frame.isConnect_iff.mp hc
      rw [he] at hf hn h
      exact h.run_connect hf.1 (Option.some.inj hn)
    | false =>
      obtain ⟨hi, hf', hd⟩ := next_quiet hf hc hn
      obtain ⟨ha, hp, hds⟩ := exec_quiet (s := s) (t := .loop x) (x := x) hi
      refine h.quiet (by rw [ha]) (by rw [ha]) (by rw [ha]) hp hds (by rw [stage_eq hc]; decide)
        hf' fun hd' ho => ⟨?_, State.isOpen_of_exec ho⟩
      by_contra hd₀
      rcases hd (by simpa using hd₀) with hd₁ | rfl | rfl
      · simp [hd₁] at hd'
      · simp [State.exec_isOpen] at ho
      · simp [State.exec_isOpen] at ho

theorem sendAck (h : Lifecycle g x (s.channel x) f) (hf : f = .connect msg d .sendAck) :
    s.descriptorState d = some .disconnected := by
  obtain ⟨-, -, hst, -, hd⟩ := h.connecting _ _ _ hf
  rw [State.descriptorState, hd]
  exact hst

end Lifecycle

theorem reachable_lifecycle (h : (gateway g).Reachable s) (x : ChannelId) :
    Lifecycle g x (s.channel x) (s.frame (.loop x)) := Lifecycle.local_invariant.reachable h

end ImProxy
