import ImProxy.Mqtt.Message
import Mathlib.Data.List.Basic
import Mathlib.Logic.Function.Basic

/-! # Channels and connection descriptors

A channel has an event loop of its own. What other threads write to it or close
on it is posted to that loop and runs there between two handlers, for each
thread in the order of its posts. The channel also keeps the descriptors built
for it and, as history, what it has received and what was written while it was
open.
-/

set_option autoImplicit false

namespace ImProxy

abbrev ChannelId := ℕ

/-- The threads of the gateway: one event loop for each channel and the callers of its API. -/
inductive Thread | loop (x : ChannelId) | server (n : ℕ)
  deriving DecidableEq, Repr

/-! ## Pipelines -/

inductive PipelineError | illegalArgument | noSuchElement
  deriving DecidableEq, Repr

/-- The names of a pipeline's handlers, head first, and the reader idle time in seconds of
its idle handler. -/
structure Pipeline where
  names : List String
  readerIdleTime : ℕ
  deriving DecidableEq, Repr

namespace Pipeline

def addFirst (name : String) (p : Pipeline) : Except PipelineError Pipeline :=
  if name ∈ p.names then .error .illegalArgument else .ok { p with names := name :: p.names }

def addLast (name : String) (p : Pipeline) : Except PipelineError Pipeline :=
  if name ∈ p.names then .error .illegalArgument else .ok { p with names := p.names ++ [name] }

def addAfter (baseName name : String) (p : Pipeline) : Except PipelineError Pipeline :=
  if name ∈ p.names then .error .illegalArgument
  else if baseName ∈ p.names then
    .ok { p with names := p.names.flatMap fun n => if n = baseName then [n, name] else [n] }
  else .error .noSuchElement

def remove (name : String) (p : Pipeline) : Pipeline :=
  { p with names := p.names.filter (· ≠ name) }

/-- `ProtocolProcessor.setIdleTime`. -/
def setIdleTime (idleTime : ℕ) (p : Pipeline) : Except PipelineError Pipeline :=
  let p := if "idleStateHandler" ∈ p.names then p.remove "idleStateHandler" else p
  { p with readerIdleTime := idleTime }.addFirst "idleStateHandler"

/-- `ConnectionDescriptor.setupAutoFlusher`. -/
def setupAutoFlusher (p : Pipeline) : Except PipelineError Pipeline :=
  match p.addAfter "idleEventHandler" "autoFlusher" with
  | .error .noSuchElement => p.addFirst "autoFlusher"
  | r => r

/-- `NettyServer.addPublicHandler`. -/
def addPublicHandler (p : Pipeline) : Except PipelineError Pipeline := do
  let p ← { p with readerIdleTime := 10 }.addFirst "idleStateHandler"
  let p ← p.addAfter "idleStateHandler" "idleEventHandler"
  let p ← p.addLast "decoder"
  let p ← p.addLast "encoder"
  p.addLast "handler"

section Names

variable {p q : Pipeline} {n name : String} {idleTime : ℕ}

theorem mem_of_addFirst (h : p.addFirst name = .ok q) :
    n ∈ q.names ↔ n = name ∨ n ∈ p.names := by
  unfold addFirst at h
  split_ifs at h
  cases h
  simp

theorem mem_of_addAfter {baseName : String} (h : p.addAfter baseName name = .ok q) :
    n ∈ q.names ↔ n = name ∨ n ∈ p.names := by
  unfold addAfter at h
  split_ifs at h with hn hb
  cases h
  simp only [List.mem_flatMap]
  constructor
  · rintro ⟨m, hm, h⟩
    split_ifs at h with he
    · simp only [List.mem_cons, List.not_mem_nil, or_false] at h
      rcases h with rfl | h
      · exact .inr hm
      · exact .inl h
    · cases List.mem_singleton.mp h
      exact .inr hm
  · rintro (rfl | h)
    · exact ⟨baseName, hb, by simp⟩
    · exact ⟨n, h, by split_ifs <;> simp⟩

theorem setIdleTime_ok (idleTime : ℕ) (p : Pipeline) : ∃ q, p.setIdleTime idleTime = .ok q ∧
    ∀ n, n ≠ "idleStateHandler" → (n ∈ q.names ↔ n ∈ p.names) := by
  by_cases hp : "idleStateHandler" ∈ p.names
  · exact ⟨⟨"idleStateHandler" :: (p.remove "idleStateHandler").names, idleTime⟩,
      by simp [setIdleTime, addFirst, remove, hp], fun n hn => by simp [remove, hn]⟩
  · exact ⟨⟨"idleStateHandler" :: p.names, idleTime⟩, by simp [setIdleTime, addFirst, hp],
      fun n hn => by simp [hn]⟩

theorem setupAutoFlusher_ok (h : p.setupAutoFlusher = .ok q) : "autoFlusher" ∉ p.names ∧
    ∀ n, n ∈ q.names ↔ n = "autoFlusher" ∨ n ∈ p.names := by
  by_cases hp : "autoFlusher" ∈ p.names
  · simp [setupAutoFlusher, addAfter, hp] at h
  · refine ⟨hp, fun n => ?_⟩
    unfold setupAutoFlusher at h
    split at h
    · exact mem_of_addFirst h
    · exact mem_of_addAfter h

theorem setupAutoFlusher_error {e : PipelineError} (h : p.setupAutoFlusher = .error e) :
    "autoFlusher" ∈ p.names := by
  by_contra hp
  unfold setupAutoFlusher addAfter addFirst at h
  simp only [hp, if_false] at h
  split_ifs at h

end Names

end Pipeline

inductive Transport | tcp | webSocket
  deriving DecidableEq, Repr

/-- The handlers that a transport's initializer adds before the public ones. -/
def Transport.handlers : Transport → List String
  | .tcp => []
  | .webSocket =>
    ["HttpServerCodec#0", "aggregator", "webSocketHandler", "ws2byteBufDecoder",
      "byteBuf2wsEncoder"]

def Transport.pipeline (t : Transport) : Pipeline :=
  match Pipeline.addPublicHandler ⟨t.handlers, 0⟩ with
  | .ok p => p
  | .error _ => ⟨t.handlers, 0⟩

/-! ## Attributes -/

/-- The attributes of `NettyUtils`, null until they are set. -/
structure Attributes where
  keepAlive : Option ℕ := none
  cleanSession : Option Bool := none
  clientID : Option String := none
  app : Option String := none
  imId : Option String := none
  token : Option String := none
  deriving DecidableEq, Repr

/-- One attribute with the value that `attr(key).set` gives it. -/
inductive Attribute
  | keepAlive (keepAlive : ℕ)
  | cleanSession (cleanSession : Bool)
  | clientID (clientID : String)
  | app (app : Option String)
  | imId (imId : Option String)
  | token (token : Option String)
  deriving DecidableEq, Repr

def Attributes.set (as : Attributes) : Attribute → Attributes
  | .keepAlive v => { as with keepAlive := some v }
  | .cleanSession v => { as with cleanSession := some v }
  | .clientID v => { as with clientID := some v }
  | .app v => { as with app := v }
  | .imId v => { as with imId := v }
  | .token v => { as with token := v }

/-! ## Connection descriptors -/

inductive ConnectionState
  | disconnected | sendAck | sessionCreated | messagesRepublished | established
  | subscriptionsRemoved | messagesDropped | interceptorsNotified
  deriving DecidableEq, Repr

/-- A descriptor object. The serial number is its identity among the descriptors built for
its channel; its mutable state lives in the channel. -/
structure Descriptor where
  clientID : String
  channel : ChannelId
  cleanSession : Bool
  serial : ℕ
  deriving DecidableEq, Repr

namespace Descriptor

/-- `ConnectionDescriptor.equals`. -/
def equals (d e : Descriptor) : Bool := d.clientID == e.clientID && d.channel == e.channel

def doesNotUseChannel (d : Descriptor) (x : ChannelId) : Bool := !(d.channel == x)

@[simp] theorem equals_iff {d e : Descriptor} :
    d.equals e = true ↔ d.clientID = e.clientID ∧ d.channel = e.channel := by
  simp [equals]

@[simp] theorem doesNotUseChannel_iff {d : Descriptor} {x : ChannelId} :
    d.doesNotUseChannel x = true ↔ d.channel ≠ x := by
  simp [doesNotUseChannel]

end Descriptor

/-- The state of a descriptor, with the CONNECT it was built for as history. -/
structure DescriptorCell where
  connect : MqttConnectMessage
  state : ConnectionState
  deriving DecidableEq, Repr

/-! ## Channels -/

/-- A packet written, with the thread that wrote it and, for an event loop, the index of the
inbound message it was handling. -/
structure Write where
  packet : MqttMessage
  source : Thread
  request : ℕ
  deriving DecidableEq, Repr

inductive Task | write (w : Write) | close
  deriving DecidableEq, Repr

structure Channel where
  isOpen : Bool
  attributes : Attributes
  pipeline : Pipeline
  /-- The descriptors built for the channel, by serial number. -/
  descriptors : List DescriptorCell
  /-- What each other thread has posted to the event loop. -/
  tasks : Thread → List Task
  received : List Inbound
  sent : List Write
  /-- A `channelInactive` event was delivered, so nothing more is read. -/
  lost : Bool
  /-- The handling of a `channelInactive` event is complete. -/
  lossHandled : Bool
  /-- Netty has delivered its own `channelInactive` event. -/
  deregistered : Bool

namespace Channel

def init (t : Transport) : Channel where
  isOpen := true
  attributes := {}
  pipeline := t.pipeline
  descriptors := []
  tasks _ := []
  received := []
  sent := []
  lost := false
  lossHandled := false
  deregistered := false

/-- Run a task on the event loop: a packet written to a closed channel is dropped. -/
def run (c : Channel) : Task → Channel
  | .write w => if c.isOpen then { c with sent := c.sent ++ [w] } else c
  | .close => { c with isOpen := false }

def post (c : Channel) (t : Thread) (k : Task) : Channel :=
  { c with tasks := Function.update c.tasks t (c.tasks t ++ [k]) }

section Run

variable (c : Channel) (k : Task) (w : Write) (t u : Thread)

theorem run_eq : c.run k = { c with isOpen := (c.run k).isOpen, sent := (c.run k).sent } := by
  cases k with
  | close => rfl
  | write w => unfold run; split_ifs <;> rfl

@[simp] theorem run_attributes : (c.run k).attributes = c.attributes := by rw [run_eq]
@[simp] theorem run_pipeline : (c.run k).pipeline = c.pipeline := by rw [run_eq]
@[simp] theorem run_descriptors : (c.run k).descriptors = c.descriptors := by rw [run_eq]
@[simp] theorem run_tasks : (c.run k).tasks = c.tasks := by rw [run_eq]
@[simp] theorem run_received : (c.run k).received = c.received := by rw [run_eq]
@[simp] theorem run_lost : (c.run k).lost = c.lost := by rw [run_eq]
@[simp] theorem run_lossHandled : (c.run k).lossHandled = c.lossHandled := by rw [run_eq]
@[simp] theorem run_deregistered : (c.run k).deregistered = c.deregistered := by rw [run_eq]

@[simp] theorem run_close_isOpen : (c.run .close).isOpen = false := rfl
@[simp] theorem run_close_sent : (c.run .close).sent = c.sent := rfl

@[simp] theorem run_write_isOpen : (c.run (.write w)).isOpen = c.isOpen := by
  unfold run; split_ifs <;> rfl

@[simp] theorem run_write_sent :
    (c.run (.write w)).sent = if c.isOpen then c.sent ++ [w] else c.sent := by
  unfold run; split_ifs <;> rfl

theorem post_tasks :
    (c.post t k).tasks u = if u = t then c.tasks u ++ [k] else c.tasks u := by
  simp only [post, Function.update_apply]
  split_ifs with h
  · rw [h]
  · rfl

end Run

def state? (c : Channel) (serial : ℕ) : Option ConnectionState :=
  c.descriptors[serial]?.map DescriptorCell.state

def assign (c : Channel) (serial : ℕ) (st : ConnectionState) : Channel :=
  { c with descriptors := c.descriptors.modify serial fun e => { e with state := st } }

end Channel

end ImProxy
