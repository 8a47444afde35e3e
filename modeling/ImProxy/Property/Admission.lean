import ImProxy.Gateway.Scenario
import ImProxy.Invariant.Flow

/-! # Admission control

A descriptor is built for a CONNECT that passed all checks, and only the handler of
such a CONNECT accepts it. What is written to another channel goes to the channel of a
descriptor. So a channel that is registered, accepted or broadcast to has received a
CONNECT that passed all checks before.
-/

set_option autoImplicit false

namespace ImProxy

open Transition

variable {g : Gateway} {s s' : State} {t : Thread} {choice : Choice} {f : Frame} {i : Instr}
  {x y : ChannelId} {a : Action} {c : String} {d : Descriptor} {w : Write} {p : MqttMessage}
  {msg : MqttConnectMessage}

/-- The channel has received a CONNECT that passes all checks. -/
def Admitted (g : Gateway) (s : State) (y : ChannelId) : Prop :=
  ∃ msg, .connect msg ∈ (s.channel y).received ∧ Passes g msg

/-- An accepted CONNACK or a PUBLISH. -/
def Write.isAdmitting (w : Write) : Bool := w.packet.isAccepted || w.packet.isPublish

/-- Nothing is registered, accepted or delivered before a CONNECT has passed all checks. -/
structure AdmissionControl (g : Gateway) (s : State) : Prop where

  entry : ∀ c d, s.connectionDescriptors.get c = some d →
    ∃ msg, .connect msg ∈ (s.channel d.channel).received ∧ Passes g msg ∧
      msg.clientIdentifier = some c

  written : ∀ a y w, s.writes g a y = some w → w.isAdmitting = true → Admitted g s y

  sent : ∀ y, ∀ w ∈ (s.channel y).sent, w.isAdmitting = true → Admitted g s y

theorem connects_received_invariant : LocalInvariant g System.always x fun c _ =>
    ∀ msg ∈ c.connects, .connect msg ∈ c.received where
  tasks _ h := h
  init := by simp [Channel.connects, Channel.init]
  read p _ _ _ h := by
    intro msg hm
    rw [Channel.receive, List.mem_append]
    cases p with
    | connect m =>
      simp only [Channel.connects, Channel.receive, newDescriptors] at hm
      split at hm
      · exact .inl (h msg hm)
      · rw [List.map_append, List.mem_append] at hm
        rcases hm with hm | hm
        · exact .inl (h msg hm)
        · cases List.mem_singleton.mp hm
          exact .inr (List.mem_singleton_self _)
    | _ => exact .inl (h msg hm)
  lose h := h
  readerIdle h _ := h
  exceptionCaught h := h
  peerClose h := h
  task t k ks _ _ _ h := by simpa [Channel.connects] using h
  run _ _ _ _ h := by simpa using h

theorem admitted_of_connects (hr : (gateway g).Reachable s)
    (hm : msg ∈ (s.channel y).connects) :
    .connect msg ∈ (s.channel y).received ∧ Passes g msg :=
  ⟨connects_received_invariant.reachable hr msg hm, (reachable_lifecycle hr y).passed msg hm⟩

theorem admitted_of_published (hr : (gateway g).Reachable s) (hd : Published s d) :
    Admitted g s d.channel := by
  obtain ⟨msg, hm, -⟩ := hd.connects
  exact ⟨msg, admitted_of_connects hr (List.mem_of_getElem? hm)⟩

theorem handles_not_admitting {q : MqttMessage} (hr : (gateway g).Reachable s)
    (hf : s.frame (.loop x) = .reply y q ∨ s.frame (.loop x) = .refuse y q) :
    q.isAccepted = false ∧ q.isPublish = false := by
  have hh := reachable_handles hr x
  rcases hf with hf | hf <;> rw [hf] at hh
  · obtain ⟨⟨hc, hp, -⟩, -⟩ := hh
    refine ⟨?_, hp⟩
    by_contra ha
    rw [isConnAck_of_isAccepted (by simpa using ha)] at hc
    cases hc
  · obtain ⟨msg, code, -, hcode, rfl⟩ := hh
    refine ⟨?_, rfl⟩
    by_contra ha
    exact refusal_ne_accepted hcode (connAck_isAccepted.mp (by simpa using ha))

/-- Whatever is accepted or broadcast to has been admitted. -/
theorem admitted_of_write (hr : (gateway g).Reachable s) (hw : s.writes g a y = some w)
    (hp : w.isAdmitting = true) : Admitted g s y := by
  cases a with
  | run t choice =>
    simp only [State.writes] at hw
    split at hw
    · next z p f hn =>
      split_ifs at hw with hz
      cases hw
      subst hz
      have hrefs := (reachable_registry hr).refs t
      have ho := reachable_owned hr t
      generalize hf : s.frame t = f₀ at hn hrefs ho
      simp only [Write.isAdmitting, Bool.or_eq_true] at hp
      cases next_statement hn with
      | reply =>
        cases t with
        | server n => exact ho.elim
        | loop x => simp [handles_not_admitting hr (.inl hf)] at hp
      | refuse =>
        cases t with
        | server n => exact ho.elim
        | loop x => simp [handles_not_admitting hr (.inr hf)] at hp
      | connAck =>
        obtain ⟨rfl, -⟩ := ho.connect
        obtain ⟨hlast, -⟩ := (reachable_lifecycle hr _).connecting _ _ _ hf
        exact ⟨_, admitted_of_connects hr (List.mem_of_getLast? hlast)⟩
      | evictWrite => exact admitted_of_published hr hrefs.2.2
      | pubAck => exact admitted_of_published hr hrefs
      | push => exact admitted_of_published hr (hrefs.1.last hrefs.2)
      | messageWrite => exact admitted_of_published hr hrefs
    · cases hw
  | _ => cases hw

theorem Admitted.step (h : Admitted g s y) (hs : Step g s a s') : Admitted g s' y := by
  obtain ⟨msg, hm, hp⟩ := h
  exact ⟨msg, (received_isPrefix hs y).subset hm, hp⟩

def FlowAdmitted (g : Gateway) (s : State) : Prop :=
  ∀ y t, ∀ w ∈ (s.channel y).flow t, w.isAdmitting = true → Admitted g s y

theorem FlowAdmitted.step (hr : (gateway g).Reachable s) (hs : FlowAdmitted g s)
    (h : Step g s a s') : FlowAdmitted g s' := by
  intro y t w hw hp
  rcases mem_flow_step (reachable_registry hr) h hw with hw | hw
  · exact (hs y t w hw hp).step h
  · simp only [State.adds, List.mem_filter, Option.mem_toList] at hw
    exact (admitted_of_write hr hw.1 hp).step h

theorem reachable_flowAdmitted (h : (gateway g).Reachable s) : FlowAdmitted g s :=
  h.invariant (fun y t w hw => by simp [State.init, Channel.init, Channel.flow] at hw)
    fun _ _ _ hr hs ht => hs.step hr (gateway_step.mp ht)

/-- Admission control holds in every reachable state. -/
theorem admission_control (hr : (gateway g).Reachable s) : AdmissionControl g s where
  entry c d hd := by
    obtain ⟨rfl, hp⟩ := (reachable_registry hr).entries c d hd
    obtain ⟨msg, hm, he⟩ := hp.connects
    obtain ⟨hrec, hpass⟩ := admitted_of_connects hr (List.mem_of_getElem? hm)
    refine ⟨msg, hrec, hpass, ?_⟩
    obtain ⟨c, hc, -⟩ := hpass.clientIdentifier
    rw [he, newDescriptor, MqttConnectMessage.clientId, hc]
    rfl
  written a y w hw hp := admitted_of_write hr hw hp
  sent y w hw hp := reachable_flowAdmitted hr y _ w (mem_flow_of_sent hw) hp

def admittedAtLast : List Action :=
  join 0 "a" ++ .read 1 (.connect { connectAs "b" with version := 5 }) :: proceed 1 2 ++
    join 2 "b" ++ .read 0 (.publish (publishOf .atLeastOnce 1)) :: proceed 0 4 ++
    [.run (.loop 0) (.fetch "b")] ++ proceed 0 5 ++ [.task 2 (.loop 0)]

theorem admission_control_admittedAtLast :
    (((after admittedAtLast).channel 2).sent.filter (·.packet.isPublish)).length = 1 ∧
      AdmissionControl ascii (after admittedAtLast) :=
  ⟨by decide, admission_control (reachable_after (by decide))⟩

end ImProxy
