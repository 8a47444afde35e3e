import ImProxy.Gateway.Statement

/-! # What handlers see

A handler reads the registry and the attributes, pipelines and descriptors of channels.
Two states that agree on these let a handler take the same steps. What a channel has
received and sent is history, and whether it is open decides only about what is sent.
-/

set_option autoImplicit false

namespace ImProxy

open Concurrent Transition

variable {g : Gateway} {s s' : State} {t u : Thread} {choice : Choice} {f : Frame} {i : Instr}
  {x y : ChannelId} {c c' : Channel} {k k' : Task} {w w' : Write}

/-- What a task does, without the history it carries. -/
def Task.content : Task → Option MqttMessage
  | .write w => some w.packet
  | .close => none

/-- Two channels that handlers cannot tell apart. The second is open whenever the first is. -/
structure Alike (c c' : Channel) : Prop where

  attributes : c'.attributes = c.attributes

  pipeline : c'.pipeline = c.pipeline

  descriptors : c'.descriptors = c.descriptors

  lost : c'.lost = c.lost

  lossHandled : c'.lossHandled = c.lossHandled

  deregistered : c'.deregistered = c.deregistered

  isOpen : c.isOpen = true → c'.isOpen = true

/-- Two channels that deliver the same packets. -/
structure SameSent (c c' : Channel) : Prop where

  isOpen : c'.isOpen = c.isOpen

  sent : c'.sent.map Write.packet = c.sent.map Write.packet

theorem Alike.refl (c : Channel) : Alike c c :=
  ⟨rfl, rfl, rfl, rfl, rfl, rfl, id⟩

/-- Two states in which every handler takes the same next step. -/
structure SameView (s s' : State) : Prop where

  connectionDescriptors : s'.connectionDescriptors = s.connectionDescriptors

  channel : ∀ y, Alike (s.channel y) (s'.channel y)

theorem SameView.descriptorState (h : SameView s s') (d : Descriptor) :
    s'.descriptorState d = s.descriptorState d := by
  rw [State.descriptorState, State.descriptorState, Channel.state?, Channel.state?,
    (h.channel _).descriptors]

theorem SameView.assignState (h : SameView s s') (d : Descriptor) (st st' : ConnectionState)
    (f f' : Frame) : assignState s' d st st' f f' = assignState s d st st' f f' := by
  rw [ImProxy.assignState, ImProxy.assignState, h.descriptorState]

theorem SameView.next (h : SameView s s') : next g s' t choice f = next g s t choice f := by
  have ha := fun y => (h.channel y).attributes
  have hp := fun y => (h.channel y).pipeline
  cases f with
  | connect msg d l =>
    cases l <;> simp only [ImProxy.next, nextConnect, h.connectionDescriptors, h.assignState, hp]
  | pubAck x msg b l =>
    cases l with
    | isConnected =>
      have hc : s'.isConnected = s.isConnected := by
        funext c
        rw [State.isConnected, State.isConnected, h.connectionDescriptors]
      cases b with
      | none => rfl
      | some c => simp only [ImProxy.next, nextPubAck]; rw [hc]
    | get => simp only [ImProxy.next, nextPubAck, h.connectionDescriptors]
    | write d => rfl
  | push content b filtered l =>
    cases l <;> simp only [ImProxy.next, nextPush, h.connectionDescriptors, ha]
  | disconnect x l => cases l <;> simp only [ImProxy.next, nextDisconnect, h.connectionDescriptors]
  | notifyAll l => cases l <;> simp only [ImProxy.next, nextNotifyAll, h.connectionDescriptors]
  | closeWithMessage l =>
    cases l <;> simp only [ImProxy.next, nextCloseWithMessage, h.connectionDescriptors]
  | closeConnection l =>
    cases l <;>
      simp only [ImProxy.next, nextCloseConnection, h.connectionDescriptors, h.assignState]
  | _ => rfl

theorem Alike.channelRead (h : Alike c c') (p : Inbound) :
    channelRead g x c' p = channelRead g x c p := by
  cases p with
  | connect msg => simp only [ImProxy.channelRead, processConnect, h.descriptors]
  | publish msg => simp only [ImProxy.channelRead, processPublish, receivedPublish, h.attributes]
  | disconnect => simp only [ImProxy.channelRead, processDisconnect, h.attributes]
  | _ => rfl

theorem Alike.channelInactive (h : Alike c c') : channelInactive x c' = channelInactive x c := by
  simp only [ImProxy.channelInactive, h.attributes]

theorem Alike.receive (h : Alike c c') (p : Inbound) :
    Alike (c.receive g p) (c'.receive g p) := by
  refine ⟨h.attributes, h.pipeline, ?_, h.lost, h.lossHandled, h.deregistered, h.isOpen⟩
  cases p with
  | connect msg => simp only [Channel.receive, newDescriptors, h.descriptors]
  | _ => exact h.descriptors

theorem Alike.lose (h : Alike c c') : Alike c.lose c'.lose :=
  ⟨h.attributes, h.pipeline, h.descriptors, rfl, h.lossHandled, rfl, fun ho => by cases ho⟩

theorem Alike.close (h : Alike c c') :
    Alike { c with isOpen := false } { c' with isOpen := false } :=
  ⟨h.attributes, h.pipeline, h.descriptors, h.lost, h.lossHandled, h.deregistered,
    fun ho => by cases ho⟩

theorem Alike.run (h : Alike c c') (hk : k'.content = k.content) : Alike (c.run k) (c'.run k') := by
  refine ⟨by simp [h.attributes], by simp [h.pipeline], by simp [h.descriptors], by simp [h.lost],
    by simp [h.lossHandled], by simp [h.deregistered], ?_⟩
  cases k <;> cases k' <;> simp_all [Task.content, h.isOpen]

theorem Alike.run_left (h : Alike c c') : Alike (c.run k) c' := by
  refine ⟨by simp [h.attributes], by simp [h.pipeline], by simp [h.descriptors], by simp [h.lost],
    by simp [h.lossHandled], by simp [h.deregistered], fun ho => ?_⟩
  cases k with
  | write w => exact h.isOpen (by simpa using ho)
  | close => cases ho

theorem SameSent.run (h : SameSent c c') (hk : k'.content = k.content) :
    SameSent (c.run k) (c'.run k') := by
  cases k with
  | close =>
    cases k' with
    | close => exact ⟨rfl, h.sent⟩
    | write w' => cases hk
  | write w =>
    cases k' with
    | close => cases hk
    | write w' =>
      refine ⟨by simp [h.isOpen], ?_⟩
      simp only [Channel.run_write_sent, h.isOpen]
      split_ifs
      · rw [List.map_append, List.map_append, h.sent]
        simpa [Task.content] using hk
      · exact h.sent

theorem Alike.post (h : Alike c c') (t : Thread) : Alike (c.post t k) (c'.post t k') :=
  ⟨h.attributes, h.pipeline, h.descriptors, h.lost, h.lossHandled, h.deregistered, h.isOpen⟩

theorem Alike.issue_left (h : Alike (s.channel y) c') : Alike ((s.issue t x k).channel y) c' := by
  simp only [State.issue, State.update_channel]
  split_ifs
  · exact h.run_left
  · exact ⟨h.attributes, h.pipeline, h.descriptors, h.lost, h.lossHandled, h.deregistered,
      h.isOpen⟩
  · exact h

theorem Alike.exec (h : ∀ y, Alike (s.channel y) (s'.channel y)) (y : ChannelId) :
    Alike ((s.exec t i).channel y) ((s'.exec t i).channel y) := by
  have issue : ∀ z k k', k'.content = k.content →
      Alike ((s.issue t z k).channel y) ((s'.issue t z k').channel y) := by
    intro z k k' hk
    simp only [State.issue, State.update_channel]
    split_ifs
    · exact (h y).run hk
    · exact (h y).post t
    · exact h y
  have update : ∀ z l, (∀ c c', Alike c c' → Alike (l c) (l c')) →
      Alike ((s.update z l).channel y) ((s'.update z l).channel y) := by
    intro z l hl
    simp only [State.update_channel]
    split_ifs
    · exact hl _ _ (h y)
    · exact h y
  cases i with
  | skip | put d | remove d => exact h y
  | write z p => exact issue z _ _ rfl
  | close z => exact issue z _ _ rfl
  | attr z b =>
    refine update z (fun c => { c with attributes := c.attributes.set b }) fun c c' hc =>
      ⟨?_, hc.pipeline, hc.descriptors, hc.lost, hc.lossHandled,
      hc.deregistered, hc.isOpen⟩
    simp only [hc.attributes]
  | pipeline z p =>
    exact update z (fun c => { c with pipeline := p }) fun c c' hc => ⟨hc.attributes, rfl,
      hc.descriptors, hc.lost, hc.lossHandled, hc.deregistered, hc.isOpen⟩
  | assignState d st =>
    refine update d.channel (fun c => c.assign d.serial st) fun c c' hc => ⟨hc.attributes,
      hc.pipeline, ?_, hc.lost, hc.lossHandled, hc.deregistered, hc.isOpen⟩
    simp only [Channel.assign, hc.descriptors]
  | closeLost z =>
    exact update z (fun c => { c with isOpen := false, lossHandled := true }) fun c c' hc =>
      ⟨hc.attributes, hc.pipeline, hc.descriptors, hc.lost, rfl, hc.deregistered,
        fun ho => by cases ho⟩

theorem SameSent.exec (h : SameSent (s.channel y) (s'.channel y)) :
    SameSent ((s.exec t i).channel y) ((s'.exec t i).channel y) := by
  refine ⟨?_, ?_⟩
  · rw [State.exec_isOpen, State.exec_isOpen]
    cases i <;> simp only [h.isOpen]
  · rw [State.exec_sent, State.exec_sent]
    cases i with
    | write z p =>
      simp only [h.isOpen]
      split_ifs
      · rw [List.map_append, List.map_append, h.sent]
        rfl
      · exact h.sent
    | _ => exact h.sent

end ImProxy
