import ImProxy.Gateway.Scenario
import ImProxy.Invariant.Registry

/-! # Sessions

Between two handlers an open channel is as its messages have left it. Without an
accepted CONNECT it has no attributes, the pipeline of its transport and no
descriptor. With one it has all six attributes of that CONNECT, the auto-flusher
behind the idle handler, one and a half times the keep-alive as its reader idle time
and an established descriptor. There is nothing in between.
-/

set_option autoImplicit false

namespace ImProxy

open Concurrent Transition

variable {g : Gateway} {s s' : State} {choice : Choice} {f f' : Frame} {i : Instr}
  {x : ChannelId} {c c' : Channel} {d : Descriptor} {msg : MqttConnectMessage} {l : ConnectLine}

/-- A message that builds a descriptor: a CONNECT that passes all checks. -/
def accepts (g : Gateway) : Inbound → Option MqttConnectMessage
  | .connect msg => if refusal g msg = none then some msg else none
  | _ => none

/-- What a channel keeps of its CONNECT. -/
structure Session where
  attributes : Attributes
  pipeline : Pipeline
  descriptors : List DescriptorCell
  deriving DecidableEq

def Channel.session (c : Channel) : Session := ⟨c.attributes, c.pipeline, c.descriptors⟩

def Transport.pipelineWith (t : Transport) (flusher : List String) (idleTime : ℕ) : Pipeline where
  names := ["idleStateHandler", "idleEventHandler"] ++ flusher ++ t.handlers ++
    ["decoder", "encoder", "handler"]
  readerIdleTime := idleTime

def sessionAt (t : Transport) (msg : MqttConnectMessage) (stage : ℕ) : Session where
  attributes :=
    { keepAlive := if 4 < stage then some msg.keepAliveTimeSeconds else none
      cleanSession := if 5 < stage then some msg.isCleanSession else none
      clientID := if 6 < stage then some msg.clientId else none
      app := if 13 < stage then msg.willTopic else none
      imId := if 14 < stage then msg.willMessage else none
      token := if 15 < stage then msg.userName else none }
  pipeline := t.pipelineWith (if 11 < stage then ["autoFlusher"] else [])
    (if 7 < stage then msg.keepAliveTimeSeconds * 3 / 2 else 10)
  descriptors := [⟨msg, if stage ≤ 8 then .disconnected
    else if stage ≤ 10 then .sendAck
    else if stage ≤ 12 then .messagesRepublished
    else .established⟩]

/-- The session of a channel between two handlers, by the CONNECT accepted on it. -/
def sessionOf (t : Transport) : Option MqttConnectMessage → Session
  | none => ⟨{}, t.pipelineWith [] 10, []⟩
  | some msg =>
    { attributes :=
        { keepAlive := some msg.keepAliveTimeSeconds
          cleanSession := some msg.isCleanSession
          clientID := some msg.clientId
          app := msg.willTopic
          imId := msg.willMessage
          token := msg.userName }
      pipeline := t.pipelineWith ["autoFlusher"] (msg.keepAliveTimeSeconds * 3 / 2)
      descriptors := [⟨msg, .established⟩] }

/-! ## Pipelines -/

theorem pipeline_eq (t : Transport) : t.pipeline = t.pipelineWith [] 10 := by
  cases t <;> rfl

theorem setIdleTime_pipelineWith (t : Transport) (k n : ℕ) :
    (t.pipelineWith [] n).setIdleTime k = .ok (t.pipelineWith [] k) := by
  cases t <;> rfl

theorem setupAutoFlusher_pipelineWith (t : Transport) (n : ℕ) :
    (t.pipelineWith [] n).setupAutoFlusher = .ok (t.pipelineWith ["autoFlusher"] n) := by
  cases t <;> rfl

/-! ## The first CONNECT -/

theorem newDescriptors_eq (g : Gateway) (c : Channel) (p : Inbound) :
    newDescriptors g c p = c.descriptors ++ (accepts g p).toList.map (⟨·, .disconnected⟩) := by
  cases p with
  | connect msg =>
    simp only [newDescriptors, accepts]
    cases refusal g msg <;> simp
  | _ => simp [newDescriptors, accepts]

theorem connects_receive (g : Gateway) (c : Channel) (p : Inbound) :
    (c.receive g p).connects = c.connects ++ (accepts g p).toList := by
  simp [Channel.connects, Channel.receive, newDescriptors_eq, Function.comp_def]

theorem accepts_eq_some {p : Inbound} (h : accepts g p = some msg) :
    p = .connect msg ∧ refusal g msg = none := by
  unfold accepts at h
  split at h
  · split_ifs at h with hm
    cases h
    exact ⟨rfl, hm⟩
  · cases h

theorem channelRead_isConnect {p : Inbound} (h : accepts g p = none) :
    (channelRead g x c p).isConnect = false := by
  cases p with
  | connect msg =>
    simp only [channelRead, processConnect]
    cases hm : refusal g msg with
    | none => simp [accepts, hm] at h
    | some code => rfl
  | publish msg => simp only [channelRead, processPublish]; split <;> rfl
  | disconnect => simp only [channelRead, processDisconnect]; split <;> rfl
  | _ => rfl

/-- The session follows the statements of the first CONNECT. -/
structure Settling (g : Gateway) (x : ChannelId) (c : Channel) (f : Frame) : Prop where

  connects : c.connects = c.received.filterMap (accepts g)

  fresh : c.connects = [] → c.session = sessionOf (g.transport x) none

  first : ∀ msg, c.connects = [msg] → c.session = sessionAt (g.transport x) msg f.stage

namespace Settling

theorem quiet (h : Settling g x c f) (hr : c'.received = c.received)
    (hs : c'.session = c.session) (hf : f.isConnect = false) (hf' : f'.isConnect = false) :
    Settling g x c' f' := by
  have hc : c'.connects = c.connects := congrArg (·.descriptors.map DescriptorCell.connect) hs
  refine ⟨by rw [hc, hr, h.connects], fun he => hs.trans (h.fresh (hc ▸ he)), fun msg he => ?_⟩
  rw [hs, h.first msg (hc ▸ he), Lifecycle.stage_eq hf, Lifecycle.stage_eq hf']

theorem receive (h : Settling g x c .idle) (p : Inbound) :
    Settling g x (c.receive g p) (channelRead g x c p) := by
  have hc := connects_receive g c p
  have hr : (c.receive g p).received.filterMap (accepts g) =
      c.received.filterMap (accepts g) ++ (accepts g p).toList := by
    simp only [Channel.receive, List.filterMap_append, List.filterMap_cons, List.filterMap_nil]
    cases accepts g p <;> rfl
  have hs : (c.receive g p).session = ⟨c.attributes, c.pipeline,
      c.descriptors ++ (accepts g p).toList.map (⟨·, .disconnected⟩)⟩ := by
    simp [Channel.session, Channel.receive, newDescriptors_eq]
  cases ha : accepts g p with
  | none =>
    have hf : (channelRead g x c p).stage = 16 := Lifecycle.stage_eq (channelRead_isConnect ha)
    rw [ha, Option.toList_none, List.append_nil] at hc hr
    rw [ha, Option.toList_none, List.map_nil, List.append_nil] at hs
    refine ⟨by rw [hc, hr, h.connects], fun he => ?_, fun msg he => ?_⟩
    · rw [hs]; exact h.fresh (hc ▸ he)
    · rw [hs, hf]; exact h.first msg (hc ▸ he)
  | some m =>
    obtain ⟨rfl, hm⟩ := accepts_eq_some ha
    have hf : (channelRead g x c (.connect m)).stage = 0 := by
      simp [channelRead, processConnect, hm, Frame.stage, ConnectLine.stage]
    rw [ha, Option.toList_some] at hc hr hs
    refine ⟨by rw [hc, hr, h.connects], fun he => by simp [hc] at he, fun msg he => ?_⟩
    obtain ⟨hnil, hmsg⟩ := List.append_inj' (hc.symm.trans he |>.trans
      (List.nil_append [msg]).symm) rfl
    cases List.singleton_inj.mp hmsg
    have hs₀ := h.fresh hnil
    simp only [Channel.session, sessionOf, Session.mk.injEq] at hs₀
    rw [hs, hf, hs₀.1, hs₀.2.1, hs₀.2.2]
    rfl

theorem advance (h : Settling g x (s.channel x) (.connect msg d l))
    (hl : Lifecycle g x (s.channel x) (.connect msg d l))
    (hs : (s.channel x).session = sessionAt (g.transport x) msg l.stage → d.serial = 0 →
      ((s.exec (.loop x) i).channel x).session = sessionAt (g.transport x) msg f.stage) :
    Settling g x ((s.exec (.loop x) i).channel x) f := by
  obtain ⟨hlast, hlen, -⟩ := hl.connecting _ _ _ rfl
  refine ⟨by rw [exec_connects, State.exec_received, h.connects], fun he => ?_, fun m he => ?_⟩
  · rw [exec_connects] at he
    simp [he] at hlast
  · rw [exec_connects] at he
    obtain rfl : m = msg := by simpa [he] using hlast
    exact hs (h.first m he) (by simpa [he] using hlen.symm)

theorem run_connect (h : Settling g x (s.channel x) (.connect msg d l))
    (hl : Lifecycle g x (s.channel x) (.connect msg d l)) (hx : d.channel = x)
    (hn : nextConnect s msg d g l = (i, f')) :
    Settling g x ((s.exec (.loop x) i).channel x) f' := by
  subst hx
  obtain ⟨-, -, hst, hlt, -⟩ := hl.connecting _ _ _ rfl
  have hstate : s.descriptorState d = some l.state := hst
  refine h.advance hl fun hs hz => ?_
  simp only [Channel.session, sessionAt, Session.mk.injEq] at hs
  obtain ⟨hat, hpi, hde⟩ := hs
  simp only [Channel.session, State.exec_attributes, State.exec_pipeline, State.exec_descriptors]
  cases l <;> simp only [nextConnect] at hn
  case get | evictWrite | evictAbort | connAck =>
    cases hn
    simp [hat, hpi, hde, sessionAt, Frame.stage, ConnectLine.stage]
  case put previous =>
    cases hn
    cases previous <;> simp [hat, hpi, hde, sessionAt, Frame.stage, ConnectLine.stage]
  case keepAlive | cleanSession | clientID | app | imId | token =>
    cases hn
    simp [hat, hpi, hde, sessionAt, Frame.stage, ConnectLine.stage, Attributes.set]
  case idleTime =>
    have hp : (s.channel d.channel).pipeline = (g.transport d.channel).pipelineWith [] 10 := hpi
    rw [hp, setIdleTime_pipelineWith] at hn
    cases hn
    simp [hat, hde, sessionAt, Frame.stage, ConnectLine.stage]
  case autoFlusher =>
    have hp : (s.channel d.channel).pipeline =
        (g.transport d.channel).pipelineWith [] (msg.keepAliveTimeSeconds * 3 / 2) := hpi
    rw [hp, setupAutoFlusher_pipelineWith] at hn
    cases hn
    simp [hat, hde, sessionAt, Frame.stage, ConnectLine.stage]
  case sendAck | republish | established =>
    rcases assignState_eq hn with ⟨_, rfl, rfl⟩ | ⟨hne, _⟩
    · simp [hat, hpi, hde, hz, sessionAt, Frame.stage, ConnectLine.stage]
    · exact absurd hstate hne
  case rollbackClose | rollbackRemove => simp [ConnectLine.stage] at hlt

theorem local_invariant : LocalInvariant g System.always x (Settling g x) where
  tasks ts h := ⟨h.connects, h.fresh, h.first⟩
  init := by
    refine ⟨rfl, fun _ => ?_, fun msg he => by simp [Channel.init, Channel.connects] at he⟩
    simp [Channel.session, Channel.init, sessionOf, pipeline_eq]
  read p _ _ _ h := h.receive p
  lose h := h.quiet rfl rfl rfl (channelInactive_loses ..).quiet.1
  readerIdle h _ := h.quiet rfl rfl rfl (channelInactive_loses ..).quiet.1
  exceptionCaught h := h.quiet rfl rfl rfl rfl
  peerClose h := h.quiet rfl rfl rfl rfl
  task t k ks _ _ _ h := h.quiet (by simp) (by simp [Channel.session]) rfl rfl
  run {s choice i f} hr _ hf hn h := by
    have hl := reachable_lifecycle hr.reachable x
    cases hc : (s.frame (.loop x)).isConnect with
    | true =>
      obtain ⟨msg, d, l, he⟩ := Frame.isConnect_iff.mp hc
      rw [he] at hf hn h hl
      exact h.run_connect hl hf.1 (Option.some.inj hn)
    | false =>
      obtain ⟨hi, hf', -⟩ := next_quiet hf hc hn
      obtain ⟨ha, hp, hd⟩ := Lifecycle.exec_quiet (s := s) (t := .loop x) (x := x) hi
      exact h.quiet (State.exec_received ..) (by simp [Channel.session, ha, hp, hd]) hc hf'

end Settling

/-! ## The properties -/

/-- Between two handlers the session of an open channel is that of the one CONNECT it accepted,
or that of a new channel. -/
theorem session_of_received (hr : (gateway g).Reachable s) (hf : s.frame (.loop x) = .idle)
    (ho : (s.channel x).isOpen = true) :
    ((s.channel x).received.filterMap (accepts g)).length ≤ 1 ∧
      (s.channel x).session =
        sessionOf (g.transport x) ((s.channel x).received.filterMap (accepts g)).head? := by
  have h : Settling g x (s.channel x) (s.frame (.loop x)) := Settling.local_invariant.reachable hr
  have hlen := (reachable_lifecycle hr x).single (by rw [hf]; rfl) ho
  rw [← h.connects]
  refine ⟨hlen, ?_⟩
  match hc : (s.channel x).connects with
  | [] => exact h.fresh hc
  | [msg] =>
    rw [h.first msg hc, hf]
    simp [sessionAt, sessionOf, Frame.stage]
  | _ :: _ :: _ => simp [hc] at hlen

theorem session_of_received_join :
    (after (join 0 "a")).frame (.loop 0) = .idle ∧
    ((after (join 0 "a")).channel 0).session = sessionOf .tcp (some (connectAs "a")) :=
  ⟨Frame.isIdle_iff.mp (by decide),
    (session_of_received (g := ascii) (x := 0) (reachable_after (by decide))
      (Frame.isIdle_iff.mp (by decide)) (by decide)).2⟩

/-- The registry and the channels agree: outside of its CONNECT and unless it is about to be closed,
the open channel of an entry has the session of a CONNECT for the client id of the entry, and no
other client id is registered with it. -/
theorem registered_session {id : String} (hr : (gateway g).Reachable s)
    (hd : s.connectionDescriptors.get id = some d) (ho : (s.channel d.channel).isOpen = true)
    (hf : (s.frame (.loop d.channel)).isConnect = false)
    (hdoomed : (s.frame (.loop d.channel)).doomed = false) :
    (∃ msg, msg.clientId = id ∧ d = newDescriptor msg d.channel 0 ∧
      (s.channel d.channel).session = sessionOf (g.transport d.channel) (some msg)) ∧
    ∀ id' e, s.connectionDescriptors.get id' = some e → e.channel = d.channel → id' = id := by
  have h : Settling g d.channel (s.channel d.channel) (s.frame (.loop d.channel)) :=
    Settling.local_invariant.reachable hr
  have hreg := reachable_registry hr
  obtain ⟨hid, hpub⟩ := hreg.entries id d hd
  have hlen := (reachable_lifecycle hr d.channel).single hdoomed ho
  constructor
  · obtain ⟨msg, hm, he⟩ := hpub.connects
    obtain ⟨hlt, hget⟩ := List.getElem?_eq_some_iff.mp hm
    have hz : d.serial = 0 := by omega
    have hc : (s.channel d.channel).connects = [msg] := by
      obtain ⟨m, hm'⟩ := List.length_eq_one_iff.mp (le_antisymm hlen (by omega))
      simp only [hm', hz, List.getElem_cons_zero] at hget
      rw [hm', hget]
    refine ⟨msg, by rw [← hid, he]; rfl, hz ▸ he, ?_⟩
    rw [h.first msg hc, Lifecycle.stage_eq hf]
    simp [sessionAt, sessionOf]
  · intro id' e he hx
    obtain ⟨hid', hpub'⟩ := hreg.entries id' e he
    obtain rfl := hpub.eq hpub' hx.symm hlen
    exact hid'.symm.trans hid

theorem registered_session_join :
    (∃ msg, msg.clientId = "a" ∧ newDescriptor (connectAs "a") 0 0 = newDescriptor msg 0 0 ∧
      ((after (join 0 "a")).channel 0).session = sessionOf .tcp (some msg)) ∧
    ∀ id e, (after (join 0 "a")).connectionDescriptors.get id = some e → e.channel = 0 → id = "a" :=
  registered_session (g := ascii) (d := newDescriptor (connectAs "a") 0 0)
    (reachable_after (by decide)) (by decide) (by decide) (by decide) (by decide)

end ImProxy
