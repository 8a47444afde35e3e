import ImProxy.Gateway.Step

/-! # The statements of the gateway

What a thread can execute in a frame, with the guards that select the branch.
The step function is inverted once, here; invariants are proved by cases on the
statement.
-/

set_option autoImplicit false

namespace ImProxy

open Concurrent

/-- A statement of thread `t` in state `s`: its frame, its operation and the frame after it. -/
inductive Statement (g : Gateway) (s : State) (t : Thread) : Frame → Instr → Frame → Prop

  | reply {x : ChannelId} {p : MqttMessage} : Statement g s t (.reply x p) (.write x p) .idle

  | refuse {x : ChannelId} {p : MqttMessage} :
      Statement g s t (.refuse x p) (.write x p) (.close x)

  | close {x : ChannelId} : Statement g s t (.close x) (.close x) .idle

  | get {msg : MqttConnectMessage} {d : Descriptor} :
      Statement g s t (.connect msg d .get) .skip
        (.connect msg d (.put (s.connectionDescriptors.get d.clientID)))

  | putNew {msg : MqttConnectMessage} {d : Descriptor} :
      Statement g s t (.connect msg d (.put none)) (.put d) (.connect msg d .keepAlive)

  | putOver {msg : MqttConnectMessage} {d p : Descriptor} :
      Statement g s t (.connect msg d (.put (some p))) (.put d) (.connect msg d (.evictWrite p))

  | evictWrite {msg : MqttConnectMessage} {d p : Descriptor} :
      Statement g s t (.connect msg d (.evictWrite p)) (.write p.channel (beExited g))
        (.connect msg d (.evictAbort p))

  | evictAbort {msg : MqttConnectMessage} {d p : Descriptor} :
      Statement g s t (.connect msg d (.evictAbort p)) (.close p.channel)
        (.connect msg d .keepAlive)

  | keepAlive {msg : MqttConnectMessage} {d : Descriptor} :
      Statement g s t (.connect msg d .keepAlive)
        (.attr d.channel (.keepAlive msg.keepAliveTimeSeconds)) (.connect msg d .cleanSession)

  | cleanSession {msg : MqttConnectMessage} {d : Descriptor} :
      Statement g s t (.connect msg d .cleanSession)
        (.attr d.channel (.cleanSession msg.isCleanSession)) (.connect msg d .clientID)

  | clientID {msg : MqttConnectMessage} {d : Descriptor} :
      Statement g s t (.connect msg d .clientID) (.attr d.channel (.clientID msg.clientId))
        (.connect msg d .idleTime)

  | idleTime {msg : MqttConnectMessage} {d : Descriptor} {p : Pipeline} :
      (s.channel d.channel).pipeline.setIdleTime (msg.keepAliveTimeSeconds * 3 / 2) = .ok p →
      Statement g s t (.connect msg d .idleTime) (.pipeline d.channel p)
        (.connect msg d .sendAck)

  | sendAck {msg : MqttConnectMessage} {d : Descriptor} :
      s.descriptorState d = some .disconnected →
      Statement g s t (.connect msg d .sendAck) (.assignState d .sendAck)
        (.connect msg d .connAck)

  | sendAckFailed {msg : MqttConnectMessage} {d : Descriptor} :
      s.descriptorState d ≠ some .disconnected →
      Statement g s t (.connect msg d .sendAck) .skip (.connect msg d (.rollbackClose true))

  | connAck {msg : MqttConnectMessage} {d : Descriptor} :
      Statement g s t (.connect msg d .connAck)
        (.write d.channel (connAck .connectionAccepted !msg.isCleanSession))
        (.connect msg d .republish)

  | republish {msg : MqttConnectMessage} {d : Descriptor} :
      s.descriptorState d = some .sendAck →
      Statement g s t (.connect msg d .republish) (.assignState d .messagesRepublished)
        (.connect msg d .autoFlusher)

  | republishFailed {msg : MqttConnectMessage} {d : Descriptor} :
      s.descriptorState d ≠ some .sendAck →
      Statement g s t (.connect msg d .republish) .skip (.connect msg d (.rollbackClose true))

  | autoFlusher {msg : MqttConnectMessage} {d : Descriptor} {p : Pipeline} :
      (s.channel d.channel).pipeline.setupAutoFlusher = .ok p →
      Statement g s t (.connect msg d .autoFlusher) (.pipeline d.channel p)
        (.connect msg d .established)

  | autoFlusherThrown {msg : MqttConnectMessage} {d : Descriptor} {e : PipelineError} :
      (s.channel d.channel).pipeline.setupAutoFlusher = .error e →
      Statement g s t (.connect msg d .autoFlusher) .skip (.close d.channel)

  | established {msg : MqttConnectMessage} {d : Descriptor} :
      s.descriptorState d = some .messagesRepublished →
      Statement g s t (.connect msg d .established) (.assignState d .established)
        (.connect msg d .app)

  | establishedFailed {msg : MqttConnectMessage} {d : Descriptor} :
      s.descriptorState d ≠ some .messagesRepublished →
      Statement g s t (.connect msg d .established) .skip (.connect msg d (.rollbackClose false))

  | rollbackClose {msg : MqttConnectMessage} {d : Descriptor} {ends : Bool} :
      Statement g s t (.connect msg d (.rollbackClose ends)) (.close d.channel)
        (.connect msg d (.rollbackRemove ends))

  | rollbackReturn {msg : MqttConnectMessage} {d : Descriptor} :
      Statement g s t (.connect msg d (.rollbackRemove true)) (.remove d) .idle

  | rollbackFall {msg : MqttConnectMessage} {d : Descriptor} :
      Statement g s t (.connect msg d (.rollbackRemove false)) (.remove d) (.connect msg d .app)

  | app {msg : MqttConnectMessage} {d : Descriptor} :
      Statement g s t (.connect msg d .app) (.attr d.channel (.app msg.willTopic))
        (.connect msg d .imId)

  | imId {msg : MqttConnectMessage} {d : Descriptor} :
      Statement g s t (.connect msg d .imId) (.attr d.channel (.imId msg.willMessage))
        (.connect msg d .token)

  | token {msg : MqttConnectMessage} {d : Descriptor} :
      Statement g s t (.connect msg d .token) (.attr d.channel (.token msg.userName)) .idle

  /-- `sendPubAck` ends without a PUBACK. -/
  | notConnected {x : ChannelId} {msg : MqttPublishMessage} {clientID : Option String}
      {l : PubAckLine} : (∀ d, l ≠ .write d) →
      Statement g s t (.pubAck x msg clientID l) .skip (pushReceived g msg clientID)

  | isConnected {x : ChannelId} {msg : MqttPublishMessage} {c : String} :
      Statement g s t (.pubAck x msg (some c) .isConnected) .skip (.pubAck x msg (some c) .get)

  | pubAckFound {x : ChannelId} {msg : MqttPublishMessage} {c : String} {d : Descriptor} :
      s.connectionDescriptors.get c = some d →
      Statement g s t (.pubAck x msg (some c) .get) .skip (.pubAck x msg (some c) (.write d))

  | pubAck {x : ChannelId} {msg : MqttPublishMessage} {clientID : Option String}
      {d : Descriptor} :
      Statement g s t (.pubAck x msg clientID (.write d)) (.write d.channel (pubAck 1))
        (pushReceived g msg clientID)

  | pushIterator {content : String} {clientId : Option String} {filtered : Bool} :
      Statement g s t (.push content clientId filtered .iterator) .skip
        (.push content clientId filtered (.loop (Iterator.create s.connectionDescriptors)))

  | pushFetch {content : String} {clientId : Option String} {filtered : Bool} {it it' : Cursor}
      {c : String} : it.fetch s.connectionDescriptors c = some it' →
      Statement g s t (.push content clientId filtered (.loop it)) .skip
        (.push content clientId filtered (.loop it'))

  | pushNext {content : String} {clientId : Option String} {filtered : Bool} {it it' : Cursor}
      {c : String} {d : Descriptor} : it.next = some ((c, d), it') →
      Statement g s t (.push content clientId filtered (.loop it)) .skip
        (.push content clientId filtered (.filter it' d))

  | pushEnd {content : String} {clientId : Option String} {filtered : Bool} {it : Cursor} :
      it.Exhausted s.connectionDescriptors →
      Statement g s t (.push content clientId filtered (.loop it)) .skip .idle

  /-- The filter calls `equals` on null. -/
  | filterThrown {content : String} {clientId : Option String} {filtered : Bool} {it : Cursor}
      {d : Descriptor} : (filtered && hasLength clientId) = true →
      (s.channel d.channel).attributes.clientID = none →
      Statement g s t (.push content clientId filtered (.filter it d)) .skip (thrown t)

  | filterOwn {content : String} {clientId : Option String} {filtered : Bool} {it : Cursor}
      {d : Descriptor} : (filtered && hasLength clientId) = true →
      (s.channel d.channel).attributes.clientID = clientId →
      Statement g s t (.push content clientId filtered (.filter it d)) .skip
        (.push content clientId filtered (.loop it))

  | filterOther {content : String} {clientId : Option String} {filtered : Bool} {it : Cursor}
      {d : Descriptor} : (filtered && hasLength clientId) = true →
      (s.channel d.channel).attributes.clientID ≠ none →
      (s.channel d.channel).attributes.clientID ≠ clientId →
      Statement g s t (.push content clientId filtered (.filter it d)) .skip
        (.push content clientId filtered (.app it d))

  | filterOff {content : String} {clientId : Option String} {filtered : Bool} {it : Cursor}
      {d : Descriptor} : (filtered && hasLength clientId) = false →
      Statement g s t (.push content clientId filtered (.filter it d)) .skip
        (.push content clientId filtered (.app it d))

  | pushApp {content : String} {clientId : Option String} {filtered : Bool} {it : Cursor}
      {d : Descriptor} : (s.channel d.channel).attributes.app.isSome = true →
      Statement g s t (.push content clientId filtered (.app it d)) .skip
        (.push content clientId filtered (.imId it d))

  | pushNoApp {content : String} {clientId : Option String} {filtered : Bool} {it : Cursor}
      {d : Descriptor} : (s.channel d.channel).attributes.app.isSome = false →
      Statement g s t (.push content clientId filtered (.app it d)) .skip
        (.push content clientId filtered (.loop it))

  | pushImId {content : String} {clientId : Option String} {filtered : Bool} {it : Cursor}
      {d : Descriptor} : (s.channel d.channel).attributes.imId.isSome = true →
      Statement g s t (.push content clientId filtered (.imId it d)) .skip
        (.push content clientId filtered (.write it d))

  | pushNoImId {content : String} {clientId : Option String} {filtered : Bool} {it : Cursor}
      {d : Descriptor} : (s.channel d.channel).attributes.imId.isSome = false →
      Statement g s t (.push content clientId filtered (.imId it d)) .skip
        (.push content clientId filtered (.loop it))

  | push {content : String} {clientId : Option String} {filtered : Bool} {it : Cursor}
      {d : Descriptor} :
      Statement g s t (.push content clientId filtered (.write it d))
        (.write d.channel (pushMessage g content)) (.push content clientId filtered (.loop it))

  | disconnectNone {x : ChannelId} {c : String} : s.connectionDescriptors.get c = none →
      Statement g s t (.disconnect x (.get c)) .skip (.close x)

  | disconnectOther {x : ChannelId} {c : String} {d : Descriptor} :
      s.connectionDescriptors.get c = some d → d.channel ≠ x →
      Statement g s t (.disconnect x (.get c)) .skip (.disconnect x (.abortOther d))

  | disconnectOwn {x : ChannelId} {c : String} {d : Descriptor} :
      s.connectionDescriptors.get c = some d → d.channel = x →
      Statement g s t (.disconnect x (.get c)) .skip (.disconnect x (.abort d))

  | abortOther {x : ChannelId} {d : Descriptor} :
      Statement g s t (.disconnect x (.abortOther d)) (.close d.channel) .idle

  | abort {x : ChannelId} {d : Descriptor} :
      Statement g s t (.disconnect x (.abort d)) (.close d.channel) (.disconnect x (.remove d))

  | remove {x : ChannelId} {d : Descriptor} :
      Statement g s t (.disconnect x (.remove d)) (.remove d) .idle

  | connectionLost {x : ChannelId} {c : String} :
      Statement g s t (.connectionLost x c) (.remove ⟨c, x, true, 0⟩) (.inactiveClose x)

  | inactiveClose {x : ChannelId} : Statement g s t (.inactiveClose x) (.closeLost x) .idle

  | notifyIterator : Statement g s t (.notifyAll .iterator) .skip
      (.notifyAll (.loop (Iterator.create s.connectionDescriptors)))

  | notifyFetch {it it' : Cursor} {c : String} : it.fetch s.connectionDescriptors c = some it' →
      Statement g s t (.notifyAll (.loop it)) .skip (.notifyAll (.loop it'))

  | notifyNext {it it' : Cursor} {c : String} {d : Descriptor} : it.next = some ((c, d), it') →
      Statement g s t (.notifyAll (.loop it)) .skip (.notifyAll (.abort it' d))

  | notifyEnd {it : Cursor} : it.Exhausted s.connectionDescriptors →
      Statement g s t (.notifyAll (.loop it)) .skip .idle

  | notifyAbort {it : Cursor} {d : Descriptor} :
      Statement g s t (.notifyAll (.abort it d)) (.close d.channel) (.notifyAll (.loop it))

  | messageNone {c : String} : s.connectionDescriptors.get c = none →
      Statement g s t (.closeWithMessage (.get c)) .skip .idle

  | messageFound {c : String} {d : Descriptor} : s.connectionDescriptors.get c = some d →
      Statement g s t (.closeWithMessage (.get c)) .skip (.closeWithMessage (.write d))

  | messageWrite {d : Descriptor} :
      Statement g s t (.closeWithMessage (.write d)) (.write d.channel (beExited g))
        (.closeWithMessage (.abort d))

  | messageAbort {d : Descriptor} :
      Statement g s t (.closeWithMessage (.abort d)) (.close d.channel) .idle

  | closeNone {c : String} {now : Bool} : s.connectionDescriptors.get c = none →
      Statement g s t (.closeConnection (.get c now)) .skip (.closeConnection (.returned false))

  | closeNow {c : String} {d : Descriptor} : s.connectionDescriptors.get c = some d →
      Statement g s t (.closeConnection (.get c true)) .skip (.closeConnection (.abort d))

  | closeGracefully {c : String} {d : Descriptor} : s.connectionDescriptors.get c = some d →
      Statement g s t (.closeConnection (.get c false)) .skip (.closeConnection (.assign d))

  | closeAbort {d : Descriptor} :
      Statement g s t (.closeConnection (.abort d)) (.close d.channel)
        (.closeConnection (.returned true))

  | closeAssign {d : Descriptor} : s.descriptorState d = some .interceptorsNotified →
      Statement g s t (.closeConnection (.assign d)) (.assignState d .disconnected)
        (.closeConnection (.close d))

  | closeAssignFailed {d : Descriptor} : s.descriptorState d ≠ some .interceptorsNotified →
      Statement g s t (.closeConnection (.assign d)) .skip (.closeConnection (.returned false))

  | closeClose {d : Descriptor} :
      Statement g s t (.closeConnection (.close d)) (.close d.channel)
        (.closeConnection (.returned true))

  | returned {result : Bool} : Statement g s t (.closeConnection (.returned result)) .skip .idle

variable {g : Gateway} {s : State} {t : Thread} {choice : Choice} {f f' : Frame} {i : Instr}

theorem assignState_eq {d : Descriptor} {expected new : ConnectionState} {success failure : Frame}
    (h : assignState s d expected new success failure = (i, f)) :
    s.descriptorState d = some expected ∧ i = .assignState d new ∧ f = success ∨
      s.descriptorState d ≠ some expected ∧ i = .skip ∧ f = failure := by
  unfold assignState at h
  split_ifs at h with he <;> cases h
  · exact .inl ⟨he, rfl, rfl⟩
  · exact .inr ⟨he, rfl, rfl⟩

theorem nextConnect_statement {msg : MqttConnectMessage} {d : Descriptor} {l : ConnectLine}
    (h : nextConnect s msg d g l = (i, f')) : Statement g s t (.connect msg d l) i f' := by
  cases l <;> simp only [nextConnect] at h
  case put previous => cases previous <;> cases h <;> constructor
  case idleTime =>
    obtain ⟨q, hq, -⟩ := Pipeline.setIdleTime_ok (msg.keepAliveTimeSeconds * 3 / 2)
      (s.channel d.channel).pipeline
    rw [hq] at h
    cases h
    exact .idleTime hq
  case sendAck =>
    rcases assignState_eq h with ⟨hs, rfl, rfl⟩ | ⟨hs, rfl, rfl⟩
    · exact .sendAck hs
    · exact .sendAckFailed hs
  case republish =>
    rcases assignState_eq h with ⟨hs, rfl, rfl⟩ | ⟨hs, rfl, rfl⟩
    · exact .republish hs
    · exact .republishFailed hs
  case autoFlusher =>
    split at h <;> cases h
    next p hp => exact .autoFlusher hp
    next e he => exact .autoFlusherThrown he
  case established =>
    rcases assignState_eq h with ⟨hs, rfl, rfl⟩ | ⟨hs, rfl, rfl⟩
    · exact .established hs
    · exact .establishedFailed hs
  case rollbackRemove ends => cases ends <;> cases h <;> constructor
  all_goals cases h; constructor

theorem nextPubAck_statement {x : ChannelId} {msg : MqttPublishMessage}
    {clientID : Option String} {l : PubAckLine} (h : nextPubAck s g x msg clientID l = (i, f')) :
    Statement g s t (.pubAck x msg clientID l) i f' := by
  cases l <;> simp only [nextPubAck] at h
  case isConnected =>
    cases clientID with
    | none => cases h; exact .notConnected (by simp)
    | some c =>
      simp only at h
      split_ifs at h <;> cases h
      · exact .isConnected
      · exact .notConnected (by simp)
  case get =>
    split at h <;> cases h
    next => exact .notConnected (by simp)
    next d hd =>
      obtain ⟨c, rfl, hc⟩ := Option.bind_eq_some_iff.mp hd
      exact .pubAckFound hc
  case write d => cases h; exact .pubAck

theorem nextPush_statement {content : String} {clientId : Option String} {filtered : Bool}
    {l : PushLine} (h : nextPush s g t content clientId filtered choice l = some (i, f')) :
    Statement g s t (.push content clientId filtered l) i f' := by
  cases l <;> simp only [nextPush] at h
  case iterator => cases h; exact .pushIterator
  case loop it =>
    cases choice with
    | fetch c =>
      obtain ⟨it', hit, h⟩ := Option.map_eq_some_iff.mp h
      cases h
      exact .pushFetch hit
    | proceed =>
      obtain ⟨⟨⟨c, d⟩, it'⟩, hit, h⟩ := Option.map_eq_some_iff.mp h
      cases h
      exact .pushNext hit
    | finish =>
      split_ifs at h with he
      cases h
      exact .pushEnd he
  case filter it d =>
    split_ifs at h with hf
    · split at h
      · next ho => cases h; exact .filterThrown hf ho
      · next o ho =>
        cases h
        split_ifs with hc
        · exact .filterOwn hf (ho.trans hc)
        · exact .filterOther hf (by simp [ho]) (ho ▸ hc)
    · cases h
      exact .filterOff (by simpa using hf)
  case app it d =>
    cases h
    split_ifs with ha
    · exact .pushApp ha
    · exact .pushNoApp (by simpa using ha)
  case imId it d =>
    cases h
    split_ifs with ha
    · exact .pushImId ha
    · exact .pushNoImId (by simpa using ha)
  case write it d => cases h; exact .push

theorem nextDisconnect_statement {x : ChannelId} {l : DisconnectLine}
    (h : nextDisconnect s x l = (i, f')) : Statement g s t (.disconnect x l) i f' := by
  cases l <;> simp only [nextDisconnect] at h
  case get c =>
    split at h
    · next hc => cases h; exact .disconnectNone hc
    · next d hc =>
      split_ifs at h with hd <;> cases h
      · exact .disconnectOther hc (by simpa using hd)
      · exact .disconnectOwn hc (by simpa using hd)
  all_goals cases h; constructor

theorem nextNotifyAll_statement {l : NotifyLine} (h : nextNotifyAll s choice l = some (i, f')) :
    Statement g s t (.notifyAll l) i f' := by
  cases l <;> simp only [nextNotifyAll] at h
  case loop it =>
    cases choice with
    | fetch c =>
      obtain ⟨it', hit, h⟩ := Option.map_eq_some_iff.mp h
      cases h
      exact .notifyFetch hit
    | proceed =>
      obtain ⟨⟨⟨c, d⟩, it'⟩, hit, h⟩ := Option.map_eq_some_iff.mp h
      cases h
      exact .notifyNext hit
    | finish =>
      split_ifs at h with he
      cases h
      exact .notifyEnd he
  all_goals cases h; constructor

theorem nextCloseWithMessage_statement {l : CloseWithMessageLine}
    (h : nextCloseWithMessage s g l = (i, f')) : Statement g s t (.closeWithMessage l) i f' := by
  cases l <;> simp only [nextCloseWithMessage] at h
  case get c =>
    split at h <;> cases h
    next hc => exact .messageNone hc
    next d hc => exact .messageFound hc
  all_goals cases h; constructor

theorem nextCloseConnection_statement {l : CloseConnectionLine}
    (h : nextCloseConnection s l = (i, f')) : Statement g s t (.closeConnection l) i f' := by
  cases l <;> simp only [nextCloseConnection] at h
  case get c now =>
    split at h <;> cases h
    next hc => exact .closeNone hc
    next d hc => cases now; exacts [.closeGracefully hc, .closeNow hc]
  case assign d =>
    rcases assignState_eq h with ⟨hs, rfl, rfl⟩ | ⟨hs, rfl, rfl⟩
    · exact .closeAssign hs
    · exact .closeAssignFailed hs
  all_goals cases h; constructor

/-- The inversion of `next`. -/
theorem next_statement (h : next g s t choice f = some (i, f')) : Statement g s t f i f' := by
  cases f with
  | idle => cases h
  | connect msg d l => exact nextConnect_statement (Option.some.inj h)
  | pubAck x msg clientID l => exact nextPubAck_statement (Option.some.inj h)
  | push content clientId filtered l => exact nextPush_statement h
  | disconnect x l => exact nextDisconnect_statement (Option.some.inj h)
  | notifyAll l => exact nextNotifyAll_statement h
  | closeWithMessage l => exact nextCloseWithMessage_statement (Option.some.inj h)
  | closeConnection l => exact nextCloseConnection_statement (Option.some.inj h)
  | reply | refuse | close | connectionLost | inactiveClose => cases h; constructor

/-! ## Where handlers start -/

/-- A frame in which the handler of a message starts. -/
inductive Frame.Begins (x : ChannelId) : Frame → Prop

  | idle : Begins x .idle

  | reply {p : MqttMessage} : Begins x (.reply x p)

  | refuse {p : MqttMessage} : Begins x (.refuse x p)

  | close : Begins x (.close x)

  | connect {msg : MqttConnectMessage} {n : ℕ} :
      Begins x (.connect msg (newDescriptor msg x n) .get)

  | pubAck {msg : MqttPublishMessage} {clientID : Option String} :
      Begins x (.pubAck x msg clientID .isConnected)

  | disconnect {clientID : String} : Begins x (.disconnect x (.get clientID))

/-- A frame in which the handling of a loss starts. -/
inductive Frame.Loses (x : ChannelId) : Frame → Prop

  | connectionLost {clientID : String} : Loses x (.connectionLost x clientID)

  | inactiveClose : Loses x (.inactiveClose x)

theorem channelRead_begins (g : Gateway) (x : ChannelId) (c : Channel) (p : Inbound) :
    (channelRead g x c p).Begins x := by
  cases p with
  | connect msg => simp only [channelRead, processConnect]; split <;> constructor
  | publish msg => simp only [channelRead, processPublish]; split <;> constructor
  | disconnect => simp only [channelRead, processDisconnect]; split <;> constructor
  | _ => constructor

theorem channelInactive_loses (x : ChannelId) (c : Channel) : (channelInactive x c).Loses x := by
  unfold channelInactive
  split
  · constructor
  · split_ifs <;> constructor

end ImProxy
