import ImProxy.Client.Text

/-! # Messages of the client

An application message to be sent or received, with its payload as a text or as bytes.
-/

set_option autoImplicit false

namespace ImProxy.Client

/-- A string, an `ArrayBuffer` or a `Uint8Array`. Typed arrays of other elements are left out. -/
inductive Payload
  | text (s : JsString)
  | buffer (bytes : List UInt8)
  | bytes (bytes : List UInt8)
  deriving DecidableEq, Repr

/-- `Paho.MQTT.Message` with the name of its destination. -/
structure Message where
  payload : Payload
  destinationName : JsString
  qos : Fin 3
  retained : Bool
  duplicate : Bool
  deriving DecidableEq, Repr

/-- `_getPayloadString`. An `ArrayBuffer` has no `length`, so nothing of it is read. -/
def Payload.payloadString : Payload → Except Thrown JsString
  | .text s => .ok s
  | .buffer _ => .ok []
  | .bytes payload => parseUTF8 payload 0 payload.length

/-- `_getPayloadBytes`. -/
def Payload.payloadBytes : Payload → Except Thrown (List UInt8)
  | .text s => stringToUTF8 s (List.replicate (UTF8Length s) 0) 0
  | .buffer payload => .ok payload
  | .bytes payload => .ok payload

end ImProxy.Client
