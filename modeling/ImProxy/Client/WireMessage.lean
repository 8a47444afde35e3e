import ImProxy.Client.Message
import ImProxy.Mqtt.Message

/-! # Wire messages of the client

The client writes a message into an array of the length it has counted before, part by part
from a position on, and reads messages out of an array at a position. What lies outside of
an array is not written, and it is read as `undefined`.
-/

set_option autoImplicit false

namespace ImProxy.Client

open Lexical

/-- A number, or `NaN`. -/
abbrev Number := Option ℕ

/-- The attributes of a CONNECT. -/
structure ConnectOptions where
  mqttVersion : MqttVersion
  clientId : JsString
  willMessage : Option Message
  userName : Option JsString
  password : Option JsString
  cleanSession : Bool
  keepAliveInterval : ℕ

/-- A wire message with the attributes that its type has. -/
inductive WireMessage
  | connect (options : ConnectOptions)
  | connAck (sessionPresent : Bool) (returnCode : Number)
  | publish (messageIdentifier : Option Number) (payloadMessage : Message)
  | pubAck (messageIdentifier : Number)
  | pubRec (messageIdentifier : Number)
  | pubRel (messageIdentifier : Number)
  | pubComp (messageIdentifier : Number)
  | subscribe (messageIdentifier : Number) (topics : List JsString) (requestedQos : List (Fin 3))
  | subAck (messageIdentifier : Number) (returnCode : List UInt8)
  | unsubscribe (messageIdentifier : Number) (topics : List JsString)
  | unsubAck (messageIdentifier : Number)
  /-- Nothing but a type. -/
  | bare (type : ℕ)

namespace MESSAGE_TYPE

def PINGREQ : ℕ := 12

def PINGRESP : ℕ := 13

def DISCONNECT : ℕ := 14

end MESSAGE_TYPE

def WireMessage.type : WireMessage → ℕ
  | .connect _ => 1
  | .connAck _ _ => 2
  | .publish _ _ => 3
  | .pubAck _ => 4
  | .pubRec _ => 5
  | .pubRel _ => 6
  | .pubComp _ => 7
  | .subscribe _ _ _ => 8
  | .subAck _ _ => 9
  | .unsubscribe _ _ => 10
  | .unsubAck _ => 11
  | .bare type => type

def WireMessage.messageIdentifier : WireMessage → Option Number
  | .publish messageIdentifier _ => messageIdentifier
  | .pubAck messageIdentifier => some messageIdentifier
  | .pubRec messageIdentifier => some messageIdentifier
  | .pubRel messageIdentifier => some messageIdentifier
  | .pubComp messageIdentifier => some messageIdentifier
  | .subscribe messageIdentifier _ _ => some messageIdentifier
  | .subAck messageIdentifier _ => some messageIdentifier
  | .unsubscribe messageIdentifier _ => some messageIdentifier
  | .unsubAck messageIdentifier => some messageIdentifier
  | .connect _ | .connAck _ _ | .bare _ => none

/-! ### Encoding -/

def mqttProtoIdentifier : MqttVersion → List UInt8
  | .mqtt31 => [0x00, 0x06, 0x4d, 0x51, 0x49, 0x73, 0x64, 0x70, 0x03]
  | .mqtt311 => [0x00, 0x04, 0x4d, 0x51, 0x54, 0x54, 0x04]

/-- `number >> 7`, where that is positive. The shift takes its operand as a number of 32 bits
with a sign. -/
def shiftMBI (number : ℕ) : ℕ :=
  if number % 2 ^ 32 < 2 ^ 31 then number % 2 ^ 32 / 128 else 0

/-- The rounds of `encodeMBI` that are left. -/
def encodeMBIFrom : ℕ → ℕ → List UInt8
  | 0, _ => []
  | k + 1, number =>
    let digit := number % 128
    let number := shiftMBI number
    if 0 < number then .ofNat (digit ||| 0x80) :: encodeMBIFrom k number
    else [.ofNat digit]

def encodeMBI (number : ℕ) : List UInt8 := encodeMBIFrom 4 number

def writeByte (input : ℕ) (buffer : List UInt8) (offset : ℕ) : List UInt8 × ℕ :=
  (buffer.set offset (.ofNat input), offset + 1)

/-- `NaN` is written as zero. -/
def writeUint16 (input : Number) (buffer : List UInt8) (offset : ℕ) : List UInt8 × ℕ :=
  let (buffer, offset) := writeByte (input.getD 0 >>> 8) buffer offset
  writeByte (input.getD 0 % 256) buffer offset

def writeString (input : JsString) (utf8Length : ℕ) (buffer : List UInt8) (offset : ℕ) :
    Except Thrown (List UInt8 × ℕ) := do
  let (buffer, offset) := writeUint16 utf8Length buffer offset
  return (← stringToUTF8 input buffer offset, offset + utf8Length)

/-- `byteStream.set`. -/
def setBytes (bytes : List UInt8) (buffer : List UInt8) (pos : ℕ) :
    Except Thrown (List UInt8 × ℕ) :=
  if pos + bytes.length ≤ buffer.length then
    .ok (Buffer.write buffer pos bytes, pos + bytes.length)
  else .error .rangeError

def writeIdentifier (messageIdentifier : Option Number) (byteStream : List UInt8) (pos : ℕ) :
    List UInt8 × ℕ :=
  match messageIdentifier with
  | some messageIdentifier => writeUint16 messageIdentifier byteStream pos
  | none => (byteStream, pos)

/-- The payload of a will. For an `ArrayBuffer` the code looks at a variable that is not
assigned yet. -/
def willMessagePayloadBytes (willMessage : Message) : Except Thrown (List UInt8) :=
  match willMessage.payload with
  | .buffer _ => .ok []
  | payload => payload.payloadBytes

def connectFlags (o : ConnectOptions) : ℕ :=
  let connectFlags := if o.cleanSession then 0x02 else 0
  let connectFlags := match o.willMessage with
    | some willMessage =>
      let connectFlags := connectFlags ||| 0x04 ||| willMessage.qos.val <<< 3
      if willMessage.retained then connectFlags ||| 0x20 else connectFlags
    | none => connectFlags
  let connectFlags := if o.userName.isSome then connectFlags ||| 0x80 else connectFlags
  if o.password.isSome then connectFlags ||| 0x40 else connectFlags

def WireMessage.first (m : WireMessage) : ℕ :=
  let first := (m.type &&& 0x0f) <<< 4
  match m with
  | .subscribe _ _ _ | .unsubscribe _ _ | .pubRel _ => first ||| 0x02
  | .publish _ payloadMessage =>
    let first := if payloadMessage.duplicate then first ||| 0x08 else first
    let first := first ||| payloadMessage.qos.val <<< 1
    if payloadMessage.retained then first ||| 0x01 else first
  | _ => first

def stringLength (s : JsString) : ℕ := UTF8Length s + 2

/-- The length of the variable header and the payload, and the bytes of the payload of the
message or of its will. -/
def WireMessage.measure (m : WireMessage) : Except Thrown (ℕ × List UInt8) := do
  let remLength := if m.messageIdentifier.isSome then 2 else 0
  match m with
  | .connect o =>
    let remLength := remLength + (mqttProtoIdentifier o.mqttVersion).length + 3
    let remLength := remLength + stringLength o.clientId
    let (remLength, bytes) ← match o.willMessage with
      | some willMessage => do
        let bytes ← willMessagePayloadBytes willMessage
        pure (remLength + stringLength willMessage.destinationName + (bytes.length + 2), bytes)
      | none => pure (remLength, [])
    let remLength := remLength + o.userName.elim 0 stringLength
    return (remLength + o.password.elim 0 stringLength, bytes)
  | .subscribe _ topics requestedQos =>
    return (remLength + (topics.map stringLength).sum + requestedQos.length, [])
  | .unsubscribe _ topics => return (remLength + (topics.map stringLength).sum, [])
  | .publish _ payloadMessage =>
    let payloadBytes ← payloadMessage.payload.payloadBytes
    return (remLength + stringLength payloadMessage.destinationName + payloadBytes.length,
      payloadBytes)
  | _ => return (remLength, [])

def WireMessage.writeHeader (m : WireMessage) (byteStream : List UInt8) (pos : ℕ) :
    Except Thrown (List UInt8 × ℕ) := do
  match m with
  | .publish _ payloadMessage =>
    writeString payloadMessage.destinationName (UTF8Length payloadMessage.destinationName)
      byteStream pos
  | .connect o =>
    let (byteStream, pos) ← setBytes (mqttProtoIdentifier o.mqttVersion) byteStream pos
    let (byteStream, pos) := writeByte (connectFlags o) byteStream pos
    return writeUint16 o.keepAliveInterval byteStream pos
  | _ => return (byteStream, pos)

def qosAt (requestedQos : List (Fin 3)) (i : ℕ) : Fin 3 := requestedQos[i]?.getD ⟨0, by decide⟩

def writeTopics (topics : List JsString) (requestedQos : List (Fin 3)) (byteStream : List UInt8)
    (pos : ℕ) : Except Thrown (List UInt8 × ℕ) :=
  topics.zipIdx.foldlM (fun w (topic, i) => do
    let (byteStream, pos) ← writeString topic (UTF8Length topic) w.1 w.2
    return writeByte (qosAt requestedQos i) byteStream pos) (byteStream, pos)

def writeOptional (s : Option JsString) (byteStream : List UInt8) (pos : ℕ) :
    Except Thrown (List UInt8 × ℕ) :=
  match s with
  | some s => writeString s (UTF8Length s) byteStream pos
  | none => .ok (byteStream, pos)

def writeWill (willMessage : Option Message) (bytes : List UInt8) (byteStream : List UInt8)
    (pos : ℕ) : Except Thrown (List UInt8 × ℕ) := do
  match willMessage with
  | some willMessage =>
    let (byteStream, pos) ← writeString willMessage.destinationName
      (UTF8Length willMessage.destinationName) byteStream pos
    let (byteStream, pos) := writeUint16 bytes.length byteStream pos
    setBytes bytes byteStream pos
  | none => return (byteStream, pos)

def WireMessage.writeBody (m : WireMessage) (bytes : List UInt8) (byteStream : List UInt8)
    (pos : ℕ) : Except Thrown (List UInt8 × ℕ) := do
  match m with
  | .connect o =>
    let (byteStream, pos) ← writeString o.clientId (UTF8Length o.clientId) byteStream pos
    let (byteStream, pos) ← writeWill o.willMessage bytes byteStream pos
    let (byteStream, pos) ← writeOptional o.userName byteStream pos
    writeOptional o.password byteStream pos
  | .publish _ _ => setBytes bytes byteStream pos
  | .subscribe _ topics requestedQos => writeTopics topics requestedQos byteStream pos
  | .unsubscribe _ topics =>
    topics.foldlM (fun w topic => writeString topic (UTF8Length topic) w.1 w.2) (byteStream, pos)
  | _ => return (byteStream, pos)

/-- The fixed header, what stands in front of the identifier, the identifier and the rest. -/
def WireMessage.write (m : WireMessage) (mbi bytes byteStream : List UInt8) (pos : ℕ) :
    Except Thrown (List UInt8 × ℕ) := do
  let (byteStream, pos) := writeByte m.first byteStream pos
  let (byteStream, pos) ← setBytes mbi byteStream pos
  let (byteStream, pos) ← m.writeHeader byteStream pos
  let (byteStream, pos) := writeIdentifier m.messageIdentifier byteStream pos
  m.writeBody bytes byteStream pos

def WireMessage.encode (m : WireMessage) : Except Thrown (List UInt8) := do
  let (remLength, bytes) ← m.measure
  let mbi := encodeMBI remLength
  let byteStream := List.replicate (remLength + (mbi.length + 1)) 0
  return (← m.write mbi bytes byteStream 0).1

/-! ### Decoding -/

/-- `buffer[offset]` as an operand. -/
def byteAt (buffer : List UInt8) (offset : Number) : Number := do
  return (← buffer[← offset]?).toNat

def readUint16 (buffer : List UInt8) (offset : Number) : Number := do
  return 256 * (← byteAt buffer offset) + (← byteAt buffer (offset.map (· + 1)))

/-- `input.subarray`, which takes `NaN` for the start of the array. -/
def subarray (input : List UInt8) (start stop : Number) : List UInt8 :=
  (input.take (stop.getD 0)).drop (start.getD 0)

/-- The remaining length behind `k` digits of it, and how many digits it has, unless the input
ends before. -/
def remLengthFrom : List UInt8 → ℕ → Number → Option (Number × ℕ)
  | [], _, _ => none
  | digit :: input, k, remLength =>
    -- from `128 ^ 147` on the multiplier is infinite, and zero times that is not a number
    let value : Number := if 147 ≤ k ∧ digit.toNat &&& 0x7F = 0 then none
      else some ((digit.toNat &&& 0x7F) * 128 ^ k)
    let remLength := do return (← remLength) + (← value)
    if digit.toNat &&& 0x80 ≠ 0 then remLengthFrom input (k + 1) remLength
    else some (remLength, k + 1)

def readPublish (messageInfo : ℕ) (input : List UInt8) (pos : ℕ) (endPos : Number) :
    Except Thrown WireMessage := do
  let qos := messageInfo >>> 1 &&& 0x03
  let len := readUint16 input (some pos)
  let pos := pos + 2
  -- nothing is less than `NaN`
  let topicName ← len.elim (.ok []) (parseUTF8 input pos)
  let pos := len.map (pos + ·)
  let (messageIdentifier, pos) :=
    if 0 < qos then (some (readUint16 input pos), pos.map (· + 2)) else (none, pos)
  if h : qos < 3 then
    return .publish messageIdentifier ⟨.bytes (subarray input pos endPos), topicName, ⟨qos, h⟩,
      messageInfo &&& 0x01 = 0x01, messageInfo &&& 0x08 = 0x08⟩
  else .error (.error (lit "Invalid argument:" ++ numberText 10 (some qos)))

def readMessage (type messageInfo : ℕ) (input : List UInt8) (pos : ℕ) (endPos : Number) :
    Except Thrown WireMessage :=
  match type with
  | 2 => .ok (.connAck ((byteAt input (some pos)).getD 0 &&& 0x01 ≠ 0)
      (byteAt input (some (pos + 1))))
  | 3 => readPublish messageInfo input pos endPos
  | 4 => .ok (.pubAck (readUint16 input (some pos)))
  | 5 => .ok (.pubRec (readUint16 input (some pos)))
  | 6 => .ok (.pubRel (readUint16 input (some pos)))
  | 7 => .ok (.pubComp (readUint16 input (some pos)))
  | 9 => .ok (.subAck (readUint16 input (some pos)) (subarray input (some (pos + 2)) endPos))
  | 11 => .ok (.unsubAck (readUint16 input (some pos)))
  | type => .ok (.bare type)

/-- The message at a position and where it ends, or no message if it is not complete. -/
def decodeMessage (input : List UInt8) (startingPos : ℕ) :
    Except Thrown (Option WireMessage × Number) := do
  let first := (byteAt input (some startingPos)).getD 0
  match remLengthFrom (input.drop (startingPos + 1)) 0 (some 0) with
  | none => return (none, some startingPos)
  | some (remLength, digits) =>
    let pos := startingPos + 1 + digits
    let endPos := remLength.map (pos + ·)
    if endPos.any (input.length < ·) then return (none, some startingPos)
    else return (← readMessage (first >>> 4) (first &&& 0x0f) input pos endPos, endPos)

end ImProxy.Client
