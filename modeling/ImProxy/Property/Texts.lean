import ImProxy.Client.Transcription
import ImProxy.Property.Transparency

/-! # Texts between clients

What a client writes for a text is read back as the same text exactly if every lead in it is
followed by a trail. The gateway decodes the bytes and encodes them again, which also takes
away a trail that follows no lead.
-/

set_option autoImplicit false

namespace ImProxy

open Client Lexical Transition Utf16

variable {g : Gateway} {t : State} {x y : ChannelId} {a : Action} {w : Write}
  {m : MqttPublishMessage} {s : JsString}

/-- The bytes that a text is sent as are read as the same text exactly if every lead in it is
followed by a trail. -/
theorem payloadString_payloadBytes_iff (s : JsString) :
    (∃ bs, (Payload.text s).payloadBytes = .ok bs ∧ (Payload.bytes bs).payloadString = .ok s) ↔
      Paired s := by
  constructor
  · rintro ⟨bs, hbs, hs⟩
    cases hc : charCodes s with
    | none =>
      obtain ⟨e, he⟩ := stringToUTF8_of_none hc
      rw [Payload.payloadBytes, he] at hbs
      cases hbs
    | some vs =>
      cases (payloadBytes_text hc).symm.trans hbs
      rw [payloadString_filled (charCodes_lt hc)] at hs
      exact paired_of_units hc (Except.ok.inj hs)
  · intro h
    obtain ⟨vs, hc, hl, he⟩ := charCodes_of_paired h
    refine ⟨_, payloadBytes_text hc, ?_⟩
    rw [payloadString_filled (charCodes_lt hc), he, hl, Nat.sub_self, List.replicate_zero,
      List.append_nil]

/-- A client sends a text, and the handler of its PUBLISH writes PUBLISHs for others. A client
reads the same text from them exactly if the text is well-formed UTF-16. -/
theorem text_arrives_iff (hg : g.IsUtf8) (hr : (gateway g).Reachable t)
    (hw : w ∈ t.adds g a (.loop x) y ∨ w ∈ (t.channel y).flow (.loop x))
    (hm : (t.channel x).received[w.request]? = some (.publish m))
    (hp : w.packet.isPublish = true)
    (hs : (Payload.text s).payloadBytes = .ok m.payload.readable) :
    (∃ topicName packetId payload, w.packet.body = .publish topicName packetId payload ∧
      (Payload.bytes payload).payloadString = .ok s) ↔ WellFormed s := by
  have hpay : (Payload.bytes (g.encode (g.decode m.payload.readable))).payloadString =
      .ok (encode (Utf8.decode m.payload.readable)) := by
    rw [hg.decode, hg.encode, String.toList_ofList]
    exact payloadString_encode _
  rw [published_packet hr hw hm hp, wellFormed_iff]
  simp only [pushMessage, publishBuilder, PacketBody.publish.injEq]
  constructor
  · rintro ⟨_, _, payload, ⟨-, -, rfl⟩, h⟩
    exact ⟨_, Except.ok.inj (h.symm.trans hpay)⟩
  · rintro ⟨cs, rfl⟩
    have hb : Utf8.encode cs = m.payload.readable :=
      Except.ok.inj ((payloadBytes_encode cs).symm.trans hs)
    refine ⟨_, _, _, ⟨rfl, rfl, rfl⟩, hpay.trans ?_⟩
    -- the bytes are well formed, so decoding and encoding them changes nothing
    have hd : Utf8.encode (Utf8.decode m.payload.readable) = Utf8.encode cs := by
      rw [Utf8.encode_decode_iff.mpr (hb ▸ Utf8.wellFormed_encode cs), hb]
    rw [← payloadString_encode, hd, payloadString_encode]

theorem text_arrives_latin :
    ((∃ topicName packetId payload, (pushMessage utf8 "\u00e9").body =
        .publish topicName packetId payload ∧ (Payload.bytes payload).payloadString = .ok [0xE9]) ↔
      WellFormed [0xE9]) :=
  text_arrives_iff (w := ⟨pushMessage utf8 "\u00e9", .loop 0, 1⟩) (x := 0) (y := 1)
    (a := .inactive 0) (t := published [0xC3, 0xA9]) (m := publishBytes [0xC3, 0xA9])
    ⟨fun _ => rfl, fun _ => rfl⟩ ⟨_, System.path_iff_run.mpr (run_published (by decide))⟩
    (.inr (by decide)) (by decide) rfl (by decide)

end ImProxy
