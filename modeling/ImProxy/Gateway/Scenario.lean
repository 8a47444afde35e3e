import ImProxy.Gateway.Statement

/-! # Steps and scenarios

The handler a step belongs to, the statement it executes, and the ingredients of
concrete runs: a gateway with an ASCII default charset whose authenticator accepts
everybody, the CONNECT of a client, and the steps of an event loop.
-/

set_option autoImplicit false

namespace ImProxy

open Concurrent Transition

/-- The thread whose handler a step executes. -/
def Action.thread : Action → Option Thread
  | .run t _ => some t
  | _ => none

theorem Action.thread_eq_some {a : Action} {t : Thread} :
    a.thread = some t ↔ ∃ choice, a = .run t choice := by
  cases a <;> simp [thread]

/-- The frame whose statement a step executes. -/
def State.executes (s : State) (a : Action) : Frame :=
  match a with
  | .run t _ => s.frame t
  | _ => .idle

/-- The descriptor that a step puts into the registry. -/
def State.puts (s : State) (a : Action) : Option Descriptor :=
  match s.executes a with
  | .connect _ d (.put _) => some d
  | _ => none

def ascii : Gateway where
  authenticate _ _ := true
  decode bytes := String.ofList (bytes.map fun b => Char.ofNat b.toNat)
  encode s := s.toList.map fun c => c.toNat.toUInt8
  transport _ := .tcp

def connectAs (clientId : String) : MqttConnectMessage where
  clientIdentifier := some clientId
  version := 4
  isWillFlag := true
  willTopic := some "app"
  willMessage := some "im"
  userName := some "user"
  isCleanSession := true
  keepAliveTimeSeconds := 60

def publishOf (qos : MqttQoS) (packetId : ℤ) : MqttPublishMessage where
  qosLevel := qos
  packetId := packetId
  payload := ⟨[], true, 0, 0, 0, by decide⟩

def proceed (x : ChannelId) (n : ℕ) : List Action := List.replicate n (.run (.loop x) .proceed)

/-- A CONNECT under a client id that is not registered, handled to its end. -/
def join (x : ChannelId) (clientId : String) : List Action :=
  .read x (.connect (connectAs clientId)) :: proceed x 14

/-- A CONNECT under a client id that is registered, handled to its end. -/
def takeOver (x : ChannelId) (clientId : String) : List Action :=
  .read x (.connect (connectAs clientId)) :: proceed x 16

/-- The state of the ASCII gateway after a run. -/
def after (as : List Action) : State :=
  ((gateway ascii).run as (.init ascii)).getD (.init ascii)

variable {as bs : List Action} {C : Condition State Action} [∀ s, DecidablePred (C s)]

omit [∀ s, DecidablePred (C s)] in
theorem run_after (h : ((gateway ascii).run as (.init ascii)).isSome = true) :
    (gateway ascii).run as (.init ascii) = some (after as) := by
  obtain ⟨s, hs⟩ := Option.isSome_iff_exists.mp h
  simp [after, hs]

omit [∀ s, DecidablePred (C s)] in
theorem reachable_after (h : ((gateway ascii).run as (.init ascii)).isSome = true) :
    (gateway ascii).Reachable (after as) := ⟨as, System.path_iff_run.mpr (run_after h)⟩

theorem path_to_after (h : ((gateway ascii).runWhere C as (.init ascii)).isSome = true) :
    (gateway ascii).Path C (.init ascii) as (after as) := by
  obtain ⟨s, hs⟩ := Option.isSome_iff_exists.mp h
  have he : after as = s := by simp [after, System.run_of_runWhere hs]
  exact he ▸ System.path_of_runWhere hs

theorem reachableWhere_after (h : ((gateway ascii).runWhere C as (.init ascii)).isSome = true) :
    (gateway ascii).ReachableWhere C (after as) := ⟨as, path_to_after h⟩

omit [∀ s, DecidablePred (C s)] in
theorem step_after {a : Action} (h : ((gateway ascii).run as (.init ascii)).isSome = true)
    (ha : ((gateway ascii).step a (after as)).isSome = true) :
    Step ascii (after as) a (after (as ++ [a])) := by
  obtain ⟨s, hs⟩ := Option.isSome_iff_exists.mp ha
  have he : after (as ++ [a]) = s := by
    rw [after, System.run_append, run_after h, Option.bind_some, System.run, hs]
    rfl
  exact he ▸ gateway_step.mp hs

/-- A run under a condition that goes on after another run. -/
theorem path_after (ha : ((gateway ascii).run as (.init ascii)).isSome = true)
    (hb : ((gateway ascii).runWhere C bs (after as)).isSome = true) :
    (gateway ascii).Path C (after as) bs (after (as ++ bs)) := by
  obtain ⟨s, hs⟩ := Option.isSome_iff_exists.mp hb
  have he : after (as ++ bs) = s := by
    rw [after, System.run_append, run_after ha, Option.bind_some, System.run_of_runWhere hs]
    rfl
  exact he ▸ System.path_of_runWhere hs

end ImProxy
