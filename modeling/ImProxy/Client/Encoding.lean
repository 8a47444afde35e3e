import ImProxy.Client.Transcription
import ImProxy.Client.WireMessage
import ImProxy.Mqtt.ControlPacket
import Mathlib.Data.List.Forall2

/-! # The client writes control packets

Every part of a message is written behind the part before it, and takes the room that was
counted for it. So the array is full at the end, and it holds a control packet whose texts
are what the client makes of them.
-/

set_option autoImplicit false

namespace ImProxy.Client

open Lexical Lexical.Buffer Mqtt

variable {m : WireMessage} {o : ConnectOptions} {s : JsString} {n : ℕ} {bs : List UInt8}

/-! ### Parts -/

def textBytes (s : JsString) : Except Thrown (List UInt8) := (Payload.text s).payloadBytes

def textField (s : JsString) : Except Thrown (List UInt8) := field <$> textBytes s

theorem length_textBytes {cs : List UInt8} (h : textBytes s = .ok cs) :
    cs.length = UTF8Length s := by
  cases hc : charCodes s with
  | none =>
    obtain ⟨e, he⟩ := stringToUTF8_of_none hc
    rw [textBytes, Payload.payloadBytes, he] at h
    cases h
  | some vs =>
    cases (payloadBytes_text hc).symm.trans h
    exact length_filled (length_le_UTF8Length hc)

theorem writeByte_writes (input : ℕ) :
    Writes 0 (fun buffer pos => .ok (writeByte input buffer pos)) 1
      (.ok [.ofNat input] : Except Thrown _) where
  length_eq cs h := by cases h; rfl
  eq n bs h := by
    rw [writeByte, set_filled (by omega), Except.map, List.length_append]
    rfl

theorem writeUint16_writes (input : Number) :
    Writes 0 (fun buffer pos => .ok (writeUint16 input buffer pos)) 2
      (.ok (uint16 (input.getD 0)) : Except Thrown _) := by
  have hl : UInt8.ofNat (input.getD 0 % 256) = UInt8.ofNat (input.getD 0) := by
    rw [← UInt8.toNat_inj, UInt8.toNat_ofNat', UInt8.toNat_ofNat']
    omega
  rw [uint16, ← hl, ← Nat.shiftRight_eq_div_pow _ 8]
  exact (writeByte_writes (input.getD 0 >>> 8)).bind (writeByte_writes (input.getD 0 % 256))

theorem setBytes_writes (bytes : List UInt8) :
    Writes 0 (setBytes bytes) bytes.length (.ok bytes) where
  length_eq cs h := by cases h; rfl
  eq n bs h := by
    rw [setBytes, length_filled (by omega), if_pos h, write_filled h, Except.map,
      List.length_append]

/-- A text that is shorter than counted leaves zeros behind it. -/
theorem stringToUTF8_writes (s : JsString) :
    Writes 0 (fun buffer pos => do return (← stringToUTF8 s buffer pos, pos + UTF8Length s))
      (UTF8Length s) (textBytes s) where
  length_eq cs h := length_textBytes h
  eq n bs h := by
    cases hc : charCodes s with
    | none =>
      obtain ⟨e, he⟩ := stringToUTF8_of_none hc
      rw [textBytes, Payload.payloadBytes, he, he]
      rfl
    | some vs =>
      have hl := length_le_UTF8Length hc
      rw [textBytes, payloadBytes_text hc, stringToUTF8_of_some hc, write_filled (by omega),
        ← filled_append_filled hl h, Except.map, List.length_append, length_filled hl]
      rfl

theorem writeString_writes (s : JsString) :
    Writes 0 (writeString s (UTF8Length s)) (stringLength s) (textField s) := by
  have h := ((writeUint16_writes (UTF8Length s)).bind (stringToUTF8_writes s)).cast
    (Nat.add_comm 2 _)
  have hr : concat (.ok (uint16 (UTF8Length s))) (textBytes s) = textField s := by
    cases ht : textBytes s with
    | error e => rw [textField, ht]; rfl
    | ok t => rw [textField, ht, ← length_textBytes ht]; rfl
  exact hr ▸ h

theorem writeOptional_writes (s : Option JsString) :
    Writes 0 (writeOptional s) (s.elim 0 stringLength) (s.elim (.ok []) textField) := by
  cases s with
  | none => exact Writes.nil
  | some s => exact writeString_writes s

def topicBytes (requestedQos : List (Fin 3)) (topic : JsString × ℕ) :
    Except Thrown (List UInt8) :=
  (· ++ [.ofNat (qosAt requestedQos topic.2)]) <$> textField topic.1

theorem writeTopics_writes (topics : List JsString) (requestedQos : List (Fin 3)) :
    Writes 0 (writeTopics topics requestedQos)
      (topics.zipIdx.map fun t => stringLength t.1 + 1).sum
      (concatAll (topics.zipIdx.map (topicBytes requestedQos))) := by
  have h : ∀ t : JsString × ℕ, Writes 0 (fun byteStream pos => do
      let w ← writeString t.1 (UTF8Length t.1) byteStream pos
      return writeByte (qosAt requestedQos t.2) w.1 w.2) (stringLength t.1 + 1)
      (topicBytes requestedQos t) := fun t => by
    have h := (writeString_writes t.1).bind (writeByte_writes (qosAt requestedQos t.2))
    rw [concat_ok] at h
    exact h
  exact Writes.foldlM h topics.zipIdx

theorem writeUnsubscribed_writes (topics : List JsString) :
    Writes 0 (fun byteStream pos => topics.foldlM
        (fun w topic => writeString topic (UTF8Length topic) w.1 w.2) (byteStream, pos))
      (topics.map stringLength).sum (concatAll (topics.map textField)) :=
  Writes.foldlM writeString_writes topics

theorem ok_of_bind {ε α β : Type} {x : Except ε α} {f : α → Except ε β} {b : β}
    (h : x >>= f = .ok b) : ∃ a, x = .ok a ∧ f a = .ok b := by
  cases x with
  | error e => cases h
  | ok a => exact ⟨a, rfl, h⟩

/-! ### Messages -/

theorem shiftMBI_eq (h : n < 128 ^ 4) : shiftMBI n = n / 128 := by
  rw [shiftMBI, Nat.mod_eq_of_lt (Nat.lt_trans h (by decide)),
    if_pos (Nat.lt_trans h (by decide))]

theorem encodeMBIFrom_succ (k : ℕ) (hn : n < 128 ^ 4) : encodeMBIFrom (k + 1) n =
    if n < 128 then [.ofNat n] else .ofNat (n % 128 + 128) :: encodeMBIFrom k (n / 128) := by
  have ho : n % 128 ||| 0x80 = n % 128 + 128 := by
    rw [Nat.or_comm, ← Nat.two_pow_add_eq_or_of_lt (i := 7) (Nat.mod_lt _ (by decide)) 1,
      Nat.add_comm]
  have he : encodeMBIFrom (k + 1) n = if 0 < shiftMBI n then
      .ofNat (n % 128 ||| 0x80) :: encodeMBIFrom k (shiftMBI n) else [.ofNat (n % 128)] := rfl
  rw [he, shiftMBI_eq hn, ho]
  split_ifs with h₁ h₂ h₂
  · omega
  · rfl
  · rw [Nat.mod_eq_of_lt h₂]
  · omega

theorem encodeMBIFrom_eq {k : ℕ} (h : n < 128 ^ (k + 1)) (hn : n < 128 ^ 4) :
    encodeMBIFrom (k + 1) n = Varint.encode k n := by
  induction k generalizing n with
  | zero => rw [encodeMBIFrom_succ _ hn, Varint.encode, if_pos (by simpa using h)]
  | succ k ih =>
    have hd : n / 128 < 128 ^ 4 := Nat.lt_of_le_of_lt (Nat.div_le_self _ _) hn
    rw [encodeMBIFrom_succ _ hn, Varint.encode, ih (Varint.div_lt h) hd]

theorem encodeMBI_eq (h : n < 128 ^ 4) : encodeMBI n = Varint.encode 3 n := encodeMBIFrom_eq h h

def WireMessage.idBytes (m : WireMessage) : List UInt8 :=
  m.messageIdentifier.elim [] fun i => uint16 (i.getD 0)

theorem write_writes {k l : ℕ} {header body : Except Thrown (List UInt8)} (mbi : List UInt8)
    (hh : Writes 0 m.writeHeader k header) (hb : Writes 0 (m.writeBody bs) l body) :
    Writes 0 (m.write mbi bs) (1 + (mbi.length + (k + (m.idBytes.length + l))))
      ((fun cs => .ofNat m.first :: (mbi ++ cs)) <$>
        concat header ((m.idBytes ++ ·) <$> body)) := by
  have hi : Writes 0 (fun byteStream pos => .ok (writeIdentifier m.messageIdentifier byteStream
      pos)) m.idBytes.length (.ok m.idBytes : Except Thrown _) := by
    rw [WireMessage.idBytes]
    cases m.messageIdentifier with
    | none => exact Writes.nil
    | some i => exact writeUint16_writes i
  have hw := (writeByte_writes m.first).bind ((setBytes_writes mbi).bind (hh.bind (hi.bind hb)))
  cases header with
  | error e => exact hw
  | ok h =>
    cases body with
    | error e => exact hw
    | ok b => exact hw

/-- A message is encoded as a packet if its lengths were counted right and the packet has the
body that is written. -/
theorem encode_of_writes {k l : ℕ} {header body : Except Thrown (List UInt8)}
    {r : Except Thrown ControlPacket} (hm : m.measure = .ok (n, bs))
    (hh : Writes 0 m.writeHeader k header) (hb : Writes 0 (m.writeBody bs) l body)
    (hn : n = k + (m.idBytes.length + l)) (hf : ∀ p, r = .ok p → p.first = m.first)
    (hr : ControlPacket.body <$> r = concat header ((m.idBytes ++ ·) <$> body))
    (hs : ∀ p, r = .ok p → p.Sized) : m.encode = r.map ControlPacket.bytes := by
  have hw := (write_writes (encodeMBI n) hh hb).cast (l := n + ((encodeMBI n).length + 1))
    (by rw [← hn, Nat.add_comm, Nat.add_comm n, Nat.add_right_comm])
  rw [WireMessage.encode, hm]
  refine hw.replicate.trans ?_
  cases header with
  | error e =>
    cases r with
    | error e' => cases hr; rfl
    | ok p => cases hr
  | ok h =>
    cases body with
    | error e =>
      cases r with
      | error e' => cases hr; rfl
      | ok p => cases hr
    | ok b =>
      cases r with
      | error e => cases hr
      | ok p =>
        have hp : p.body = h ++ (m.idBytes ++ b) := Except.ok.inj hr
        have hl : p.body.length = n := by
          rw [hp, List.length_append, List.length_append, hh.length_eq h rfl,
            hb.length_eq b rfl, hn]
        have hlt : n < 128 ^ 4 := hl ▸ hs p rfl
        change Except.ok _ = Except.ok _
        rw [ControlPacket.bytes, frame, hl, ← encodeMBI_eq hlt, hf p rfl, hp]

/-! ### The packet of a message -/

def protocolName : MqttVersion → List UInt8
  | .mqtt31 => [0x4d, 0x51, 0x49, 0x73, 0x64, 0x70]
  | .mqtt311 => [0x4d, 0x51, 0x54, 0x54]

theorem mqttProtoIdentifier_eq (v : MqttVersion) :
    mqttProtoIdentifier v = field (protocolName v) ++ [.ofNat v.protocolLevel] := by
  cases v <;> decide

def packetWill (message : List UInt8) (w : Message) : Except Thrown Will := do
  return ⟨← textBytes w.destinationName, message, w.qos, w.retained⟩

def packetConnect (o : ConnectOptions) (message : List UInt8) : Except Thrown ControlPacket := do
  let clientId ← textBytes o.clientId
  let will ← o.willMessage.mapM (packetWill message)
  let userName ← o.userName.mapM textBytes
  let password ← o.password.mapM textBytes
  return .connect ⟨protocolName o.mqttVersion, o.mqttVersion.protocolLevel, o.cleanSession,
    o.keepAliveInterval, clientId, will, userName, password⟩

/-- The packet that a message stands for, where the client sends such messages. Its texts are
what the client makes of them, or the first of them that it cannot write. -/
def WireMessage.packet : WireMessage → Option (Except Thrown ControlPacket)
  | .connect o => some do
    packetConnect o (← o.willMessage.elim (.ok []) willMessagePayloadBytes)
  | .publish messageIdentifier payloadMessage => some do
    let payload ← payloadMessage.payload.payloadBytes
    let topicName ← textBytes payloadMessage.destinationName
    return .publish ⟨payloadMessage.duplicate, payloadMessage.qos, payloadMessage.retained,
      topicName, messageIdentifier.map (·.getD 0), payload⟩
  | .pubAck messageIdentifier => some (.ok (.pubAck (messageIdentifier.getD 0)))
  | .pubRec messageIdentifier => some (.ok (.pubRec (messageIdentifier.getD 0)))
  | .pubRel messageIdentifier => some (.ok (.pubRel (messageIdentifier.getD 0)))
  | .pubComp messageIdentifier => some (.ok (.pubComp (messageIdentifier.getD 0)))
  | .subscribe messageIdentifier topics requestedQos =>
    if requestedQos.length = topics.length then some do
      let filters ← topics.zipIdx.mapM fun t => do
        return (← textBytes t.1, qosAt requestedQos t.2)
      return .subscribe (messageIdentifier.getD 0) filters
    else none
  | .unsubscribe messageIdentifier topics => some do
    return .unsubscribe (messageIdentifier.getD 0) (← topics.mapM textBytes)
  | .bare type =>
    if type = MESSAGE_TYPE.PINGREQ then some (.ok .pingReq)
    else if type = MESSAGE_TYPE.DISCONNECT then some (.ok .disconnect)
    else none
  | .connAck _ _ | .subAck _ _ | .unsubAck _ => none

/-! ### What a message says -/

/-- The bytes that a payload holds, or those of its text, which is well formed. -/
def Payload.Holds : Payload → List UInt8 → Prop
  | .text s, bs => ∃ cs : List Char, s = Utf16.encode cs ∧ bs = Utf8.encode cs
  | .buffer payload, bs => bs = payload
  | .bytes payload, bs => bs = payload

/-- A well-formed text and its bytes in UTF-8, whose number fits into two bytes. -/
def Transcribes (s : JsString) (bs : List UInt8) : Prop :=
  (Payload.text s).Holds bs ∧ bs.length < 65536

/-- A will of a CONNECT. The client does not write the bytes of an `ArrayBuffer` there. -/
structure SendsWill (w : Message) (v : Will) : Prop where

  topic : Transcribes w.destinationName v.topic

  message : w.payload.Holds v.message

  notBuffer : ∀ bytes, w.payload ≠ .buffer bytes

  fits : v.message.length < 65536

  qos : v.qos = w.qos

  retain : v.retain = w.retained

structure SendsConnect (o : ConnectOptions) (c : Connect) : Prop where

  protocolName : c.protocolName = protocolName o.mqttVersion

  protocolLevel : c.protocolLevel = o.mqttVersion.protocolLevel

  cleanSession : c.cleanSession = o.cleanSession

  keepAlive : c.keepAlive = o.keepAliveInterval

  fits : c.keepAlive < 65536

  clientId : Transcribes o.clientId c.clientId

  will : Option.Rel SendsWill o.willMessage c.will

  userName : Option.Rel Transcribes o.userName c.userName

  password : Option.Rel Transcribes o.password c.password

/-- The packet that says the same as a message. Its texts are well formed, and its numbers fit
into their bytes. -/
inductive Sends : WireMessage → ControlPacket → Prop

  | connect {o : ConnectOptions} {c : Connect} : SendsConnect o c →
      Sends (.connect o) (.connect c)

  | publish {dup retain : Bool} {qos : Fin 3} {payload : Payload} {topic : JsString}
      {bytes topicName : List UInt8} {i : Option ℕ} : payload.Holds bytes →
      Transcribes topic topicName → (∀ n, i = some n → n < 65536) → (i.isSome ↔ 0 < qos.val) →
      Sends (.publish (i.map some) ⟨payload, topic, qos, retain, dup⟩)
        (.publish ⟨dup, qos, retain, topicName, i, bytes⟩)

  | pubAck {i : ℕ} : i < 65536 → Sends (.pubAck (some i)) (.pubAck i)

  | pubRec {i : ℕ} : i < 65536 → Sends (.pubRec (some i)) (.pubRec i)

  | pubRel {i : ℕ} : i < 65536 → Sends (.pubRel (some i)) (.pubRel i)

  | pubComp {i : ℕ} : i < 65536 → Sends (.pubComp (some i)) (.pubComp i)

  | subscribe {i : ℕ} {topics : List JsString} {filters : List (List UInt8 × Fin 3)} :
      i < 65536 → List.Forall₂ Transcribes topics (filters.map Prod.fst) →
      Sends (.subscribe (some i) topics (filters.map Prod.snd)) (.subscribe i filters)

  | unsubscribe {i : ℕ} {topics : List JsString} {filters : List (List UInt8)} :
      i < 65536 → List.Forall₂ Transcribes topics filters →
      Sends (.unsubscribe (some i) topics) (.unsubscribe i filters)

  | pingReq : Sends (.bare MESSAGE_TYPE.PINGREQ) .pingReq

  | disconnect : Sends (.bare MESSAGE_TYPE.DISCONNECT) .disconnect

theorem Payload.Holds.payloadBytes {payload : Payload} (h : payload.Holds bs) :
    payload.payloadBytes = .ok bs := by
  cases payload with
  | text s =>
    obtain ⟨cs, rfl, rfl⟩ := h
    exact payloadBytes_encode cs
  | buffer bytes | bytes bytes => exact congrArg Except.ok h.symm

theorem Transcribes.textBytes (h : Transcribes s bs) : textBytes s = .ok bs := h.1.payloadBytes

theorem mapM_of_rel {α β : Type} {R : α → β → Prop} {f : α → Except Thrown β} {a : Option α}
    {b : Option β} (hf : ∀ x y, R x y → f x = .ok y) (h : Option.Rel R a b) :
    a.mapM f = .ok b := by
  cases h with
  | none => rfl
  | some h => rw [Option.mapM_some, hf _ _ h]; rfl

theorem SendsConnect.packet {c : Connect} (h : SendsConnect o c) :
    (WireMessage.connect o).packet = some (.ok (.connect c)) := by
  have hb : ∃ message, o.willMessage.elim (.ok []) willMessagePayloadBytes = .ok message ∧
      o.willMessage.mapM (packetWill message) = .ok c.will := by
    have hw := h.will
    generalize o.willMessage = w, c.will = v at hw
    cases hw with
    | none => exact ⟨[], rfl, rfl⟩
    | @some w v hw =>
      refine ⟨v.message, ?_, ?_⟩
      · rw [Option.elim_some, willMessagePayloadBytes]
        split
        · rename_i bytes hbuf
          exact absurd hbuf (hw.notBuffer bytes)
        · exact hw.message.payloadBytes
      · rw [Option.mapM_some, packetWill, hw.topic.textBytes, ← hw.qos, ← hw.retain]
        rfl
  obtain ⟨message, hm, hw⟩ := hb
  have hc : packetConnect o message = .ok (.connect c) := by
    rw [packetConnect, h.clientId.textBytes, hw, mapM_of_rel (fun _ _ h => h.textBytes) h.userName,
      mapM_of_rel (fun _ _ h => h.textBytes) h.password, ← h.protocolName, ← h.protocolLevel,
      ← h.cleanSession, ← h.keepAlive]
    rfl
  rw [WireMessage.packet, hm]
  exact congrArg some hc

theorem mapM_textBytes {topics : List JsString} {filters : List (List UInt8)}
    (h : List.Forall₂ Transcribes topics filters) : topics.mapM textBytes = .ok filters := by
  induction h with
  | nil => rfl
  | cons h _ ih => rw [List.mapM_cons, h.textBytes, ih]; rfl

theorem mapM_filters {topics : List JsString} {filters : List (List UInt8 × Fin 3)}
    (h : List.Forall₂ Transcribes topics (filters.map Prod.fst)) (qs : List (Fin 3)) :
    (topics.zipIdx qs.length).mapM (m := Except Thrown) (fun t => do
      return (← textBytes t.1, qosAt (qs ++ filters.map Prod.snd) t.2)) = .ok filters := by
  induction filters generalizing topics qs with
  | nil => cases h; rfl
  | cons f filters ih =>
    cases h with
    | @cons s _ topics _ hs h =>
      have hi := ih h (qs ++ [f.2])
      rw [List.length_append, List.length_singleton, List.append_assoc] at hi
      have hq : qosAt (qs ++ (f :: filters).map Prod.snd) qs.length = f.2 := by
        rw [qosAt, List.map_cons, List.getElem?_append_right le_rfl, Nat.sub_self]
        rfl
      rw [List.zipIdx_cons, List.mapM_cons]
      dsimp only
      rw [hs.textBytes, hq]
      exact congrArg (fun r => r >>= fun fs => Except.ok (f :: fs)) hi

/-- What the client makes of the texts of a message are their bytes in the packet. -/
theorem Sends.packet {p : ControlPacket} (h : Sends m p) : m.packet = some (.ok p) := by
  cases h with
  | connect h => exact h.packet
  | @publish _ _ _ _ _ _ _ i hp ht _ _ =>
    have hi : (i.map some).map (fun i : Number => i.getD 0) = i := by cases i <;> rfl
    rw [WireMessage.packet, hp.payloadBytes, ht.textBytes, hi]
    rfl
  | @subscribe i topics filters _ ht =>
    have hl := ht.length_eq
    have hf := mapM_filters ht []
    rw [List.length_map] at hl
    rw [WireMessage.packet, if_pos (by rw [List.length_map, hl])]
    rw [List.length_nil, List.nil_append] at hf
    rw [hf]
    rfl
  | unsubscribe _ ht => rw [WireMessage.packet, mapM_textBytes ht]; rfl
  | pubAck _ | pubRec _ | pubRel _ | pubComp _ => rfl
  | pingReq | disconnect => rfl

theorem connectFlags_eq (c : Connect) (o : ConnectOptions) (hc : c.cleanSession = o.cleanSession)
    (hw : c.will.map (fun w => (w.qos, w.retain)) =
      o.willMessage.map fun w => (w.qos, w.retained))
    (hu : c.userName.isSome = o.userName.isSome) (hp : c.password.isSome = o.password.isSome) :
    connectFlags o = c.flags := by
  rw [connectFlags, Connect.flags, hc, hu, hp]
  cases hm : o.willMessage with
  | none =>
    rw [hm, Option.map_none, Option.map_eq_none_iff] at hw
    rw [hw]
    cases o.cleanSession <;> cases o.userName.isSome <;> cases o.password.isSome <;> rfl
  | some w =>
    rw [hm, Option.map_some, Option.map_eq_some_iff] at hw
    obtain ⟨v, hv, he⟩ := hw
    obtain ⟨hq, hr⟩ := Prod.mk.inj he
    rw [hv]
    simp only [Option.elim_some, hq, hr]
    generalize w.qos = q
    cases o.cleanSession <;> cases o.userName.isSome <;> cases o.password.isSome <;>
      cases w.retained <;> revert q <;> decide

theorem connect_writeHeader (o : ConnectOptions) :
    Writes 0 (WireMessage.connect o).writeHeader ((mqttProtoIdentifier o.mqttVersion).length + 3)
      (.ok (mqttProtoIdentifier o.mqttVersion ++
        ([.ofNat (connectFlags o)] ++ uint16 o.keepAliveInterval))) :=
  (setBytes_writes _).bind ((writeByte_writes _).bind (writeUint16_writes (some _)))

def willBytes (willMessage : Option Message) (message : List UInt8) :
    Except Thrown (List UInt8) :=
  willMessage.elim (.ok []) fun w => (· ++ field message) <$> textField w.destinationName

theorem writeWill_writes (willMessage : Option Message) (message : List UInt8) :
    Writes 0 (writeWill willMessage message)
      (willMessage.elim 0 fun w => stringLength w.destinationName + (2 + message.length))
      (willBytes willMessage message) := by
  cases willMessage with
  | none => exact Writes.nil
  | some w =>
    have h := (writeString_writes w.destinationName).bind
      ((writeUint16_writes (some message.length)).bind (setBytes_writes message))
    have hr : concat (.ok (uint16 message.length)) (.ok message) =
      (.ok (field message) : Except Thrown _) := rfl
    rw [Option.getD_some, hr, concat_ok] at h
    exact h

theorem connect_writeBody (o : ConnectOptions) (message : List UInt8) :
    Writes 0 ((WireMessage.connect o).writeBody message)
      (stringLength o.clientId + ((o.willMessage.elim 0 fun w =>
        stringLength w.destinationName + (2 + message.length)) +
        (o.userName.elim 0 stringLength + o.password.elim 0 stringLength)))
      (concat (textField o.clientId) (concat (willBytes o.willMessage message)
        (concat (o.userName.elim (.ok []) textField) (o.password.elim (.ok []) textField)))) :=
  (writeString_writes o.clientId).bind ((writeWill_writes o.willMessage message).bind
    ((writeOptional_writes o.userName).bind (writeOptional_writes o.password)))

theorem willBytes_eq (w : Option Message) (message : List UInt8) :
    willBytes w message =
      (fun w => w.elim [] fun w => field w.topic ++ field w.message) <$>
        w.mapM (packetWill message) := by
  cases w with
  | none => rfl
  | some w =>
    rw [willBytes, Option.elim_some, textField, Option.mapM_some, packetWill]
    cases textBytes w.destinationName <;> rfl

theorem textOptional_eq (s : Option JsString) :
    s.elim (.ok []) textField = (fun t => t.elim [] field) <$> s.mapM textBytes := by
  cases s with
  | none => rfl
  | some s =>
    rw [Option.elim_some, textField, Option.mapM_some]
    cases textBytes s <;> rfl

theorem map_will {w : Option Message} {message : List UInt8} {v : Option Will}
    (h : w.mapM (packetWill message) = .ok v) :
    v.map (fun w => (w.qos, w.retain)) = w.map fun w => (w.qos, w.retained) := by
  cases w with
  | none => cases h; rfl
  | some w =>
    rw [Option.mapM_some, packetWill] at h
    cases ht : textBytes w.destinationName with
    | error e => rw [ht] at h; cases h
    | ok t => rw [ht] at h; cases h; rfl

theorem isSome_of_mapM {s : Option JsString} {t : Option (List UInt8)}
    (h : s.mapM textBytes = .ok t) : t.isSome = s.isSome := by
  cases s with
  | none => cases h; rfl
  | some s =>
    rw [Option.mapM_some] at h
    cases ht : textBytes s with
    | error e => rw [ht] at h; cases h
    | ok t => rw [ht] at h; cases h; rfl

theorem connect_measure {o : ConnectOptions} {message : List UInt8}
    (h : o.willMessage.elim (.ok []) willMessagePayloadBytes = .ok message) :
    (WireMessage.connect o).measure = .ok ((mqttProtoIdentifier o.mqttVersion).length + 3 +
      (stringLength o.clientId + ((o.willMessage.elim 0 fun w =>
        stringLength w.destinationName + (2 + message.length)) +
        (o.userName.elim 0 stringLength + o.password.elim 0 stringLength))), message) := by
  rw [WireMessage.measure]
  cases hw : o.willMessage with
  | none =>
    rw [hw] at h
    cases h
    change Except.ok (_, _) = Except.ok (_, _)
    congr 2
    simp only [WireMessage.messageIdentifier, Option.isSome_none, Bool.false_eq_true, if_false,
      Option.elim_none]
    omega
  | some w =>
    rw [hw, Option.elim_some] at h
    simp only [h]
    change Except.ok (_, _) = Except.ok (_, _)
    congr 2
    simp only [WireMessage.messageIdentifier, Option.isSome_none, Bool.false_eq_true, if_false,
      Option.elim_some]
    omega

theorem connect_first {o : ConnectOptions} {message : List UInt8} (p : ControlPacket)
    (h : packetConnect o message = .ok p) : p.first = (WireMessage.connect o).first := by
  obtain ⟨_, -, h⟩ := ok_of_bind h
  obtain ⟨_, -, h⟩ := ok_of_bind h
  obtain ⟨_, -, h⟩ := ok_of_bind h
  obtain ⟨_, -, h⟩ := ok_of_bind h
  cases h
  change (0x10 : ℕ) = (1 &&& 0x0f) <<< 4
  decide

theorem connect_body (o : ConnectOptions) (message : List UInt8) :
    ControlPacket.body <$> packetConnect o message =
      concat (.ok (mqttProtoIdentifier o.mqttVersion ++
          ([.ofNat (connectFlags o)] ++ uint16 o.keepAliveInterval)))
        (([] ++ ·) <$> concat (field <$> textBytes o.clientId)
          (concat ((fun w => w.elim [] fun w => field w.topic ++ field w.message) <$>
              o.willMessage.mapM (packetWill message))
            (concat ((fun t => t.elim [] field) <$> o.userName.mapM textBytes)
              ((fun t => t.elim [] field) <$> o.password.mapM textBytes)))) := by
  rw [packetConnect]
  cases textBytes o.clientId with
  | error e => rfl
  | ok a =>
    cases hw : o.willMessage.mapM (packetWill message) with
    | error e => rfl
    | ok w =>
      cases hu : o.userName.mapM textBytes with
      | error e => rfl
      | ok u =>
        cases hv : o.password.mapM textBytes with
        | error e => rfl
        | ok v =>
          have hf := connectFlags_eq ⟨protocolName o.mqttVersion, o.mqttVersion.protocolLevel,
            o.cleanSession, o.keepAliveInterval, a, w, u, v⟩ o rfl (map_will hw)
            (isSome_of_mapM hu) (isSome_of_mapM hv)
          rw [hf, mqttProtoIdentifier_eq]
          change Except.ok _ = Except.ok _
          simp only [ControlPacket.body, Connect.body, List.append_assoc]
          rfl

theorem encode_connect (o : ConnectOptions) {r : Except Thrown ControlPacket}
    (h : (WireMessage.connect o).packet = some r) (hs : ∀ p, r = .ok p → p.Sized) :
    (WireMessage.connect o).encode = r.map ControlPacket.bytes := by
  cases h
  cases hm : o.willMessage.elim (.ok []) willMessagePayloadBytes with
  | error e =>
    cases hw : o.willMessage with
    | none => rw [hw] at hm; cases hm
    | some w =>
      rw [hw, Option.elim_some] at hm
      rw [WireMessage.encode, WireMessage.measure, hw]
      simp only [hm]
      rfl
  | ok message =>
    rw [hm] at hs
    have hb := connect_writeBody o message
    rw [willBytes_eq, textOptional_eq, textOptional_eq] at hb
    refine encode_of_writes (connect_measure hm) (connect_writeHeader o) hb ?_ ?_ ?_ hs
    · rw [WireMessage.idBytes, WireMessage.messageIdentifier, Option.elim_none, List.length_nil,
        Nat.zero_add]
    · exact connect_first
    · exact connect_body o message

theorem publish_first (dup retain : Bool) (q : Fin 3) (i : Option Number) (payload : Payload)
    (s : JsString) : (WireMessage.publish i ⟨payload, s, q, retain, dup⟩).first =
      0x30 + bit dup 8 + q * 2 + bit retain 1 := by
  rw [WireMessage.first]
  simp only [WireMessage.type]
  cases dup <;> cases retain <;> simp only [Bool.false_eq_true, if_false, if_true, bit] <;>
    revert q <;> decide

theorem encode_publish (i : Option Number) (p : Message) {r : Except Thrown ControlPacket}
    (h : (WireMessage.publish i p).packet = some r) (hs : ∀ p, r = .ok p → p.Sized) :
    (WireMessage.publish i p).encode = r.map ControlPacket.bytes := by
  cases h
  cases hp : p.payload.payloadBytes with
  | error e =>
    rw [WireMessage.encode, WireMessage.measure, hp]
    rfl
  | ok payload =>
    rw [hp] at hs
    have hm : (WireMessage.publish i p).measure = .ok ((if i.isSome then 2 else 0) +
        stringLength p.destinationName + payload.length, payload) := by
      rw [WireMessage.measure, hp]
      rfl
    refine encode_of_writes hm (writeString_writes p.destinationName) (setBytes_writes payload)
      ?_ ?_ ?_ hs
    · cases i with
      | none => simp [WireMessage.idBytes, WireMessage.messageIdentifier]
      | some i =>
        simp only [WireMessage.idBytes, WireMessage.messageIdentifier, Option.isSome_some,
          Option.elim_some, length_uint16, if_true]
        omega
    · cases ht : textBytes p.destinationName with
      | error e => exact fun _ h => nomatch h
      | ok t =>
        rintro _ ⟨⟩
        exact (publish_first _ _ _ i p.payload p.destinationName).symm
    · rw [textField]
      cases textBytes p.destinationName with
      | error e => rfl
      | ok t =>
        cases i with
        | none => exact congrArg Except.ok (List.append_assoc _ _ _)
        | some i => exact congrArg Except.ok (List.append_assoc _ _ _)

theorem sum_zipIdx (topics : List JsString) (i : ℕ) :
    ((topics.zipIdx i).map fun t => stringLength t.1 + 1).sum =
      (topics.map stringLength).sum + topics.length := by
  induction topics generalizing i with
  | nil => rfl
  | cons t topics ih =>
    have hi := ih (i + 1)
    simp only [List.zipIdx_cons, List.map_cons, List.sum_cons, List.length_cons]
    omega

theorem encode_subscribe (i : Number) (topics : List JsString) (requestedQos : List (Fin 3))
    {r : Except Thrown ControlPacket}
    (h : (WireMessage.subscribe i topics requestedQos).packet = some r)
    (hs : ∀ p, r = .ok p → p.Sized) :
    (WireMessage.subscribe i topics requestedQos).encode = r.map ControlPacket.bytes := by
  rw [WireMessage.packet] at h
  split_ifs at h with hq
  cases h
  have hb := writeTopics_writes topics requestedQos
  rw [concatAll_map (f := fun f => field f.1 ++ [.ofNat f.2])
    (g := fun t => do return (← textBytes t.1, qosAt requestedQos t.2))] at hb
  · refine encode_of_writes (n := 2 + (topics.map stringLength).sum + requestedQos.length) rfl
      Writes.nil hb ?_ ?_ ?_ hs
    · rw [sum_zipIdx, hq]
      change _ = 0 + (2 + _)
      omega
    · intro p hp
      obtain ⟨_, -, hp⟩ := ok_of_bind hp
      cases hp
      change (0x82 : ℕ) = (8 &&& 0x0f) <<< 4 ||| 0x02
      decide
    · cases topics.zipIdx.mapM (m := Except Thrown) _ with
      | error e => rfl
      | ok fs => rfl
  · intro t
    rw [topicBytes, textField]
    cases textBytes t.1 <;> rfl

theorem encode_unsubscribe (i : Number) (topics : List JsString) {r : Except Thrown ControlPacket}
    (h : (WireMessage.unsubscribe i topics).packet = some r) (hs : ∀ p, r = .ok p → p.Sized) :
    (WireMessage.unsubscribe i topics).encode = r.map ControlPacket.bytes := by
  cases h
  have hb := writeUnsubscribed_writes topics
  have ht : ∀ s, textField s = field <$> textBytes s := fun _ => rfl
  rw [concatAll_map ht] at hb
  refine encode_of_writes (n := 2 + (topics.map stringLength).sum) rfl Writes.nil hb ?_ ?_ ?_ hs
  · change _ = 0 + (2 + _)
    omega
  · intro p hp
    obtain ⟨_, -, hp⟩ := ok_of_bind hp
    cases hp
    change (0xA2 : ℕ) = (10 &&& 0x0f) <<< 4 ||| 0x02
    decide
  · cases topics.mapM textBytes with
    | error e => rfl
    | ok fs => rfl

theorem encode_short {p : ControlPacket} (hm : m.measure = .ok (m.idBytes.length, []))
    (hh : Writes 0 m.writeHeader 0 (.ok [])) (hb : Writes 0 (m.writeBody []) 0 (.ok []))
    (hf : p.first = m.first) (hr : p.body = m.idBytes) : m.encode = .ok p.bytes := by
  refine encode_of_writes (r := .ok p) hm hh hb (by rw [Nat.zero_add, Nat.add_zero]) ?_ ?_ ?_
  · rintro _ ⟨⟩
    exact hf
  · change Except.ok p.body = Except.ok ([] ++ (m.idBytes ++ []))
    rw [hr, List.nil_append, List.append_nil]
  · rintro _ ⟨⟩
    rw [ControlPacket.Sized, hr, WireMessage.idBytes]
    cases m.messageIdentifier with
    | none => decide
    | some i => exact (by decide : 2 < 128 ^ 4)

end ImProxy.Client
