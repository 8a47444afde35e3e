import ImProxy.Gateway.State
import ImProxy.Mqtt.Topic

/-! # The handlers

The methods of the message handler, the protocol processor, the publish handler
and the connection manager. A handler starts in the frame that its dispatcher
gives it; `next` is the operation a frame executes and the frame after it, read
off the source statement by statement.
-/

set_option autoImplicit false

namespace ImProxy

open Concurrent

/-- What the gateway is deployed with: the authenticator, the default charset of the JVM and
the transport that each channel was accepted on. -/
structure Gateway where
  authenticate : String → String → Bool
  decode : List UInt8 → String
  encode : String → List UInt8
  transport : ChannelId → Transport

/-! ## Packets -/

def connAck (returnCode : MqttConnectReturnCode) (sessionPresent : Bool) : MqttMessage :=
  ⟨fixedHeader .connAck .atMostOnce, .connAck returnCode sessionPresent⟩

def pubAck (packetId : ℕ) : MqttMessage := ⟨fixedHeader .pubAck .atMostOnce, .pubAck packetId⟩

def pingResp : MqttMessage := ⟨fixedHeader .pingResp .atMostOnce, .empty⟩

def brokerDisconnectionMessage : String := "\x7b\"action\":\"beExited\"\x7d"

/-- The packet `closeWithMessage` sends to a connection before it closes it. -/
def beExited (g : Gateway) : MqttMessage :=
  publishBuilder "" .atMostOnce (g.encode brokerDisconnectionMessage)

/-- The packet `pushMsg2All` sends to every connection. -/
def pushMessage (g : Gateway) (content : String) : MqttMessage :=
  publishBuilder "" .atMostOnce (g.encode content)

/-! ## The checks of `processConnect` -/

/-- `StringUtils.hasLength`. -/
def hasLength (s : Option String) : Bool := s.any fun s => s ≠ ""

/-- No code of the repository sets the field. -/
def allowAnonymous : Bool := false

def isBadProtocol (msg : MqttConnectMessage) : Option MqttConnectReturnCode :=
  if msg.version ≠ MqttVersion.mqtt31.protocolLevel ∧
      msg.version ≠ MqttVersion.mqtt311.protocolLevel then
    some .connectionRefusedUnacceptableProtocolVersion
  else if !msg.isWillFlag || !hasLength msg.willTopic || !hasLength msg.willMessage then
    some .connectionRefusedNotAuthorized
  else none

def login (g : Gateway) (msg : MqttConnectMessage) : Bool :=
  match msg.clientIdentifier, msg.userName with
  | some clientId, some userName =>
    if clientId = "" then allowAnonymous
    else if userName = "" then allowAnonymous
    else g.authenticate clientId userName
  | _, _ => allowAnonymous

/-- The return code of the CONNACK that refuses a CONNECT, if one of the checks does. -/
def refusal (g : Gateway) (msg : MqttConnectMessage) : Option MqttConnectReturnCode :=
  if !hasLength msg.clientIdentifier then some .connectionRefusedIdentifierRejected
  else match isBadProtocol msg with
    | some code => some code
    | none => if login g msg then none else some .connectionRefusedNotAuthorized

def MqttConnectMessage.clientId (msg : MqttConnectMessage) : String :=
  msg.clientIdentifier.getD ""

/-- `new ConnectionDescriptor(clientId, channel, cleanSession)`. -/
def newDescriptor (msg : MqttConnectMessage) (x : ChannelId) (serial : ℕ) : Descriptor :=
  ⟨msg.clientId, x, msg.isCleanSession, serial⟩

def processConnect (g : Gateway) (x : ChannelId) (c : Channel) (msg : MqttConnectMessage) :
    Frame :=
  match refusal g msg with
  | some code => .refuse x (connAck code false)
  | none => .connect msg (newDescriptor msg x c.descriptors.length) .get

/-! ## The other handlers, up to their first operation -/

def doVerify (msg : MqttSubscribeMessage) : List MqttTopicSubscription :=
  msg.topicSubscriptions.map fun req =>
    let topic : Topic := { topic := req.topicName }
    let (valid, topic) := topic.isValid
    ⟨topic.topic, if valid then req.qualityOfService else .failure⟩

def doAckMessageFromValidateFilters (topicFilters : List MqttTopicSubscription)
    (messageId : ℕ) : MqttMessage :=
  ⟨fixedHeader .subAck .atMostOnce,
    .subAck messageId (topicFilters.map fun req => req.qualityOfService.value)⟩

def processSubscribe (x : ChannelId) (msg : MqttSubscribeMessage) : Frame :=
  .reply x (doAckMessageFromValidateFilters (doVerify msg) msg.messageId)

def processUnsubscribe (x : ChannelId) (msg : MqttUnsubscribeMessage) : Frame :=
  .reply x ⟨fixedHeader .unsubAck .atLeastOnce, .unsubAck msg.messageId⟩

def receivedPublish (x : ChannelId) (c : Channel) (msg : MqttPublishMessage) : Frame :=
  .pubAck x msg c.attributes.clientID .isConnected

def processPublish (x : ChannelId) (c : Channel) (msg : MqttPublishMessage) : Frame :=
  match msg.qosLevel with
  | .atMostOnce => receivedPublish x c msg
  | .atLeastOnce => receivedPublish x c msg
  | .exactlyOnce => receivedPublish x c msg
  | .failure => .idle

def processDisconnect (x : ChannelId) (c : Channel) : Frame :=
  match c.attributes.clientID with
  | none => .idle
  | some clientID => .disconnect x (.get clientID)

/-- `GateWayMessageHandler.channelRead`. -/
def channelRead (g : Gateway) (x : ChannelId) (c : Channel) : Inbound → Frame
  | .connect msg => processConnect g x c msg
  | .subscribe msg => processSubscribe x msg
  | .unsubscribe msg => processUnsubscribe x msg
  | .publish msg => processPublish x c msg
  | .pubRec => .idle
  | .pubComp => .idle
  | .pubRel => .idle
  | .disconnect => processDisconnect x c
  | .pubAck _ => .idle
  | .pingReq => .reply x pingResp
  | .unknown _ => .idle
  -- the null header throws before the try, and `exceptionCaught` closes the channel
  | .malformed => .close x

/-- `GateWayMessageHandler.channelInactive`. -/
def channelInactive (x : ChannelId) (c : Channel) : Frame :=
  match c.attributes.clientID with
  | none => .inactiveClose x
  | some clientID => if clientID = "" then .inactiveClose x else .connectionLost x clientID

/-! ## The handlers, operation by operation -/

/-- How the scheduler resolves a step: iterators choose what they read from the map and when
they end, everything else proceeds. -/
inductive Choice
  | proceed
  | fetch (clientID : String)
  | finish
  deriving DecidableEq, Repr

/-- `compareAndSet` on the state of a descriptor, with the frames for success and failure. -/
def assignState (s : State) (d : Descriptor) (expected new : ConnectionState)
    (success failure : Frame) : Instr × Frame :=
  if s.descriptorState d = some expected then (.assignState d new, success) else (.skip, failure)

def nextConnect (s : State) (msg : MqttConnectMessage) (d : Descriptor) (g : Gateway) :
    ConnectLine → Instr × Frame
  | .get => (.skip, .connect msg d (.put (s.connectionDescriptors.get d.clientID)))
  | .put previous =>
    (.put d, .connect msg d (match previous with
      | some p => .evictWrite p
      | none => .keepAlive))
  | .evictWrite p => (.write p.channel (beExited g), .connect msg d (.evictAbort p))
  | .evictAbort p => (.close p.channel, .connect msg d .keepAlive)
  | .keepAlive =>
    (.attr d.channel (.keepAlive msg.keepAliveTimeSeconds), .connect msg d .cleanSession)
  | .cleanSession =>
    (.attr d.channel (.cleanSession msg.isCleanSession), .connect msg d .clientID)
  | .clientID => (.attr d.channel (.clientID msg.clientId), .connect msg d .idleTime)
  | .idleTime =>
    -- (int) (keepAlive * 1.5)
    match (s.channel d.channel).pipeline.setIdleTime (msg.keepAliveTimeSeconds * 3 / 2) with
    | .ok p => (.pipeline d.channel p, .connect msg d .sendAck)
    | .error _ => (.skip, .close d.channel)
  | .sendAck =>
    assignState s d .disconnected .sendAck (.connect msg d .connAck)
      (.connect msg d (.rollbackClose true))
  | .connAck =>
    (.write d.channel (connAck .connectionAccepted !msg.isCleanSession),
      .connect msg d .republish)
  | .republish =>
    assignState s d .sendAck .messagesRepublished (.connect msg d .autoFlusher)
      (.connect msg d (.rollbackClose true))
  | .autoFlusher =>
    match (s.channel d.channel).pipeline.setupAutoFlusher with
    | .ok p => (.pipeline d.channel p, .connect msg d .established)
    | .error _ => (.skip, .close d.channel)
  | .established =>
    assignState s d .messagesRepublished .established (.connect msg d .app)
      (.connect msg d (.rollbackClose false))
  | .rollbackClose ends => (.close d.channel, .connect msg d (.rollbackRemove ends))
  | .rollbackRemove ends => (.remove d, if ends then .idle else .connect msg d .app)
  | .app => (.attr d.channel (.app msg.willTopic), .connect msg d .imId)
  | .imId => (.attr d.channel (.imId msg.willMessage), .connect msg d .token)
  | .token => (.attr d.channel (.token msg.userName), .idle)

/-- `AnswerPublishHandler.convertByteBufToString`. -/
def convertByteBufToString (g : Gateway) (buf : ByteBuf) : String :=
  if buf.hasArray then
    g.decode ((buf.memory.drop (buf.arrayOffset + buf.readerIndex)).take buf.readableBytes)
  else
    let bytes := (buf.memory.drop (buf.arrayOffset + buf.readerIndex)).take buf.readableBytes
    g.decode (bytes.take buf.readableBytes)

/-- The rest of `receivedPublish` once `sendPubAck` is over. -/
def pushReceived (g : Gateway) (msg : MqttPublishMessage) (clientID : Option String) : Frame :=
  .push (convertByteBufToString g msg.payload) clientID true .iterator

/-! ### Queries of the registry -/

def State.isConnected (s : State) (clientID : String) : Bool :=
  s.connectionDescriptors.containsKey clientID

def State.getActiveConnectionsNo (s : State) : ℕ := s.connectionDescriptors.keys.card

def State.getConnectedClientIds (s : State) : Finset String := s.connectionDescriptors.keys

def nextPubAck (s : State) (g : Gateway) (x : ChannelId) (msg : MqttPublishMessage)
    (clientID : Option String) : PubAckLine → Instr × Frame
  -- a null key or a missing entry throws, and `sendPubAck` catches everything
  | .isConnected =>
    match clientID with
    | none => (.skip, pushReceived g msg clientID)
    | some c =>
      if s.isConnected c then (.skip, .pubAck x msg clientID .get)
      else (.skip, pushReceived g msg clientID)
  | .get =>
    match clientID.bind s.connectionDescriptors.get with
    | none => (.skip, pushReceived g msg clientID)
    | some d => (.skip, .pubAck x msg clientID (.write d))
  | .write d => (.write d.channel (pubAck 1), pushReceived g msg clientID)

/-- Where an exception leaves a thread: an event loop closes the channel it was reading. -/
def thrown : Thread → Frame
  | .loop x => .close x
  | .server _ => .idle

def nextPush (s : State) (g : Gateway) (t : Thread) (content : String)
    (clientId : Option String) (filtered : Bool) (choice : Choice) :
    PushLine → Option (Instr × Frame)
  | .iterator =>
    some (.skip,
      .push content clientId filtered (.loop (Iterator.create s.connectionDescriptors)))
  | .loop it =>
    match choice with
    | .fetch c => (it.fetch s.connectionDescriptors c).map fun it =>
        (.skip, .push content clientId filtered (.loop it))
    | .proceed => it.next.map fun (en, it) =>
        (.skip, .push content clientId filtered (.filter it en.2))
    | .finish => if it.Exhausted s.connectionDescriptors then some (.skip, .idle) else none
  | .filter it d =>
    if filtered && hasLength clientId then
      match (s.channel d.channel).attributes.clientID with
      -- the filter calls `equals` on null, outside of the loop's try
      | none => some (.skip, thrown t)
      | some o =>
        some (.skip, .push content clientId filtered
          (if some o = clientId then .loop it else .app it d))
    else some (.skip, .push content clientId filtered (.app it d))
  | .app it d =>
    some (.skip, .push content clientId filtered
      (if (s.channel d.channel).attributes.app.isSome then .imId it d else .loop it))
  | .imId it d =>
    some (.skip, .push content clientId filtered
      (if (s.channel d.channel).attributes.imId.isSome then .write it d else .loop it))
  | .write it d =>
    some (.write d.channel (pushMessage g content),
      .push content clientId filtered (.loop it))

def nextDisconnect (s : State) (x : ChannelId) : DisconnectLine → Instr × Frame
  | .get clientID =>
    match s.connectionDescriptors.get clientID with
    | none => (.skip, .close x)
    | some existing =>
      if existing.doesNotUseChannel x then (.skip, .disconnect x (.abortOther existing))
      else (.skip, .disconnect x (.abort existing))
  | .abortOther existing => (.close existing.channel, .idle)
  | .abort existing => (.close existing.channel, .disconnect x (.remove existing))
  | .remove existing => (.remove existing, .idle)

def nextNotifyAll (s : State) (choice : Choice) : NotifyLine → Option (Instr × Frame)
  | .iterator => some (.skip, .notifyAll (.loop (Iterator.create s.connectionDescriptors)))
  | .loop it =>
    match choice with
    | .fetch c => (it.fetch s.connectionDescriptors c).map fun it => (.skip, .notifyAll (.loop it))
    | .proceed => it.next.map fun (en, it) => (.skip, .notifyAll (.abort it en.2))
    | .finish => if it.Exhausted s.connectionDescriptors then some (.skip, .idle) else none
  | .abort it d => some (.close d.channel, .notifyAll (.loop it))

def nextCloseWithMessage (s : State) (g : Gateway) : CloseWithMessageLine → Instr × Frame
  | .get clientID =>
    match s.connectionDescriptors.get clientID with
    | none => (.skip, .idle)
    | some d => (.skip, .closeWithMessage (.write d))
  | .write d => (.write d.channel (beExited g), .closeWithMessage (.abort d))
  | .abort d => (.close d.channel, .idle)

def nextCloseConnection (s : State) : CloseConnectionLine → Instr × Frame
  | .get clientID closeImmediately =>
    match s.connectionDescriptors.get clientID with
    | none => (.skip, .closeConnection (.returned false))
    | some d => (.skip, .closeConnection (if closeImmediately then .abort d else .assign d))
  | .abort d => (.close d.channel, .closeConnection (.returned true))
  | .assign d =>
    assignState s d .interceptorsNotified .disconnected (.closeConnection (.close d))
      (.closeConnection (.returned false))
  | .close d => (.close d.channel, .closeConnection (.returned true))
  | .returned _ => (.skip, .idle)

/-- The operation a thread executes next and the frame after it. -/
def next (g : Gateway) (s : State) (t : Thread) (choice : Choice) :
    Frame → Option (Instr × Frame)
  | .idle => none
  | .reply x p => some (.write x p, .idle)
  | .refuse x p => some (.write x p, .close x)
  | .close x => some (.close x, .idle)
  | .connect msg d l => some (nextConnect s msg d g l)
  | .pubAck x msg clientID l => some (nextPubAck s g x msg clientID l)
  | .push content clientId filtered l => nextPush s g t content clientId filtered choice l
  | .disconnect x l => some (nextDisconnect s x l)
  | .connectionLost x clientID => some (.remove ⟨clientID, x, true, 0⟩, .inactiveClose x)
  | .inactiveClose x => some (.closeLost x, .idle)
  | .notifyAll l => nextNotifyAll s choice l
  | .closeWithMessage l => some (nextCloseWithMessage s g l)
  | .closeConnection l => some (nextCloseConnection s l)

end ImProxy
