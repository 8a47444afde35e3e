import ImProxy.Concurrent.Map
import ImProxy.Gateway.Channel

/-! # Frames

Where a thread stands in a handler: the statement to execute next together with
the local variables of the methods it is inside of. Two statements of one thread
are separate steps of the gateway, so that steps of other threads may fall
between them.
-/

set_option autoImplicit false

namespace ImProxy

/-- The statements of `processConnect` after its checks, with those of `addConnection`,
`closeWithMessage`, `initializeKeepAliveTime`, `sendAck` and `republish` in place. -/
inductive ConnectLine
  | get
  | put (previous : Option Descriptor)
  | evictWrite (previous : Descriptor)
  | evictAbort (previous : Descriptor)
  | keepAlive
  | cleanSession
  | clientID
  | idleTime
  | sendAck
  | connAck
  | republish
  | autoFlusher
  | established
  /-- A rollback, which either ends the handler or falls through to the attributes. -/
  | rollbackClose (ends : Bool)
  | rollbackRemove (ends : Bool)
  | app
  | imId
  | token

/-- The statements of `sendPubAck` and `sendMessage2Client`. -/
inductive PubAckLine
  | isConnected
  | get
  | write (descriptor : Descriptor)

/-- The position of an iterator over the registry. -/
abbrev Cursor := Concurrent.Iterator String Descriptor

/-- The statements of the loop of `pushMsg2All`. -/
inductive PushLine
  | iterator
  | loop (it : Cursor)
  | filter (it : Cursor) (descriptor : Descriptor)
  | app (it : Cursor) (descriptor : Descriptor)
  | imId (it : Cursor) (descriptor : Descriptor)
  | write (it : Cursor) (descriptor : Descriptor)

/-- The statements of `processDisconnect`. -/
inductive DisconnectLine
  | get (clientID : String)
  | abortOther (existing : Descriptor)
  | abort (existing : Descriptor)
  | remove (existing : Descriptor)

/-- The statements of `notifyAllDisconnect`. -/
inductive NotifyLine
  | iterator
  | loop (it : Cursor)
  | abort (it : Cursor) (descriptor : Descriptor)

/-- The statements of `closeWithMessage(String)`. -/
inductive CloseWithMessageLine
  | get (clientID : String)
  | write (descriptor : Descriptor)
  | abort (descriptor : Descriptor)

/-- The statements of `closeConnection` and `ConnectionDescriptor.close`. -/
inductive CloseConnectionLine
  | get (clientID : String) (closeImmediately : Bool)
  | abort (descriptor : Descriptor)
  | assign (descriptor : Descriptor)
  | close (descriptor : Descriptor)
  | returned (result : Bool)

inductive Frame
  | idle
  /-- `writeAndFlush` on the own channel as the last statement. -/
  | reply (x : ChannelId) (p : MqttMessage)
  /-- `closeChannelAndLog`: the write, then the close. -/
  | refuse (x : ChannelId) (p : MqttMessage)
  /-- The own channel's close as the last statement. -/
  | close (x : ChannelId)
  | connect (msg : MqttConnectMessage) (descriptor : Descriptor) (line : ConnectLine)
  | pubAck (x : ChannelId) (msg : MqttPublishMessage) (clientID : Option String)
    (line : PubAckLine)
  | push (content : String) (clientId : Option String) (filtered : Bool) (line : PushLine)
  | disconnect (x : ChannelId) (line : DisconnectLine)
  /-- `processConnectionLost` for the client id the channel carries. -/
  | connectionLost (x : ChannelId) (clientID : String)
  /-- The close at the end of `channelInactive`. -/
  | inactiveClose (x : ChannelId)
  | notifyAll (line : NotifyLine)
  | closeWithMessage (line : CloseWithMessageLine)
  | closeConnection (line : CloseConnectionLine)

namespace Frame

def isIdle : Frame → Bool
  | .idle => true
  | _ => false

@[simp] theorem isIdle_iff {f : Frame} : f.isIdle = true ↔ f = .idle := by
  cases f <;> simp [isIdle]

end Frame

end ImProxy
