import ImProxy.Invariant.History
import ImProxy.Invariant.View

/-! # Channels without an accepted CONNECT

Such a channel has no descriptor and no client id. Its handlers write and close on
their own channel, with one exception: a PUBLISH is broadcast without the filter. It
reaches nobody when every registered connection is closed.
-/

set_option autoImplicit false

namespace ImProxy

open Concurrent Transition

variable {g : Gateway} {s s' : State} {choice : Choice} {f f' : Frame} {i : Instr} {x y : ChannelId}
  {c : Channel} {p : Inbound}

def accepting (g : Gateway) : Inbound → Bool
  | .connect msg => (refusal g msg).isNone
  | _ => false

/-- No CONNECT among these messages was accepted. -/
def unaccepted (g : Gateway) (ms : List Inbound) : Bool := ms.all fun m => !accepting g m

theorem unaccepted_append {ms ns : List Inbound} :
    unaccepted g (ms ++ ns) = (unaccepted g ms && unaccepted g ns) := List.all_append

theorem unaccepted_of_isPrefix {ms ns : List Inbound} (h : ms <+: ns)
    (hu : unaccepted g ns = true) : unaccepted g ms = true := by
  obtain ⟨ls, rfl⟩ := h
  rw [unaccepted_append, Bool.and_eq_true] at hu
  exact hu.1

theorem newDescriptors_of_unaccepted (h : accepting g p = false) :
    newDescriptors g c p = c.descriptors := by
  cases p with
  | connect msg =>
    simp only [newDescriptors]
    cases hr : refusal g msg with
    | none => simp [accepting, hr] at h
    | some code => rfl
  | _ => rfl

theorem connects_of_unaccepted (hr : (gateway g).Reachable s)
    (h : unaccepted g (s.channel x).received = true) : (s.channel x).connects = [] := by
  have hP : LocalInvariant g System.always x fun c _ =>
      unaccepted g c.received = true → c.connects = [] :=
    { tasks := fun _ h => h
      init := fun _ => rfl
      read := fun {s} p _ _ _ h hu => by
        simp only [Channel.receive, unaccepted_append, Bool.and_eq_true] at hu
        rw [← h hu.1, Channel.connects, Channel.connects, Channel.receive]
        rw [newDescriptors_of_unaccepted (by simpa [unaccepted] using hu.2)]
      lose := fun h => h
      readerIdle := fun h _ => h
      exceptionCaught := fun h => h
      peerClose := fun h => h
      task := fun t k ks _ _ _ h => by simpa using h
      run := fun _ _ _ _ h => by simpa using h }
  exact hP.reachable hr h

theorem clientID_of_unaccepted (hr : (gateway g).Reachable s)
    (h : unaccepted g (s.channel x).received = true) :
    (s.channel x).attributes.clientID = none := by
  have hc := connects_of_unaccepted hr h
  rw [(reachable_lifecycle hr x).clientID]
  simp [Channel.past, hc]

/-! ## Their handlers -/

def AllClosed (s : State) : Prop :=
  ∀ c ∈ s.getConnectedClientIds, ∀ d ∈ s.connectionDescriptors.get c,
    (s.channel d.channel).isOpen = false

instance : Decidable (AllClosed s) := inferInstanceAs (Decidable (∀ c ∈ _, ∀ d ∈ _, _ = _))

theorem AllClosed.get {k : String} {d : Descriptor} (h : AllClosed s)
    (hd : s.connectionDescriptors.get k = some d) : (s.channel d.channel).isOpen = false :=
  h k (Finmap.mem_keys.mpr (Finmap.mem_of_lookup_eq_some hd)) d hd

def State.Closed (s : State) (d : Descriptor) : Prop := (s.channel d.channel).isOpen = false

/-- The frames of a handler on a channel without a client id: writes and closes on the own
channel, and a broadcast to closed channels. -/
def Frame.Harmless (x : ChannelId) (s : State) : Frame → Prop
  | .idle => True
  | .reply y _ => y = x
  | .refuse y _ => y = x
  | .close y => y = x
  | .pubAck y _ none .isConnected => y = x ∧ AllClosed s
  | .push content none filtered l =>
    (Frame.push content none filtered l).Refs s.Closed ∧ AllClosed s
  | _ => False

theorem Frame.Harmless.mono (h : f.Harmless x s)
    (hc : s'.connectionDescriptors = s.connectionDescriptors)
    (ho : ∀ y, (s'.channel y).isOpen = true → (s.channel y).isOpen = true) :
    f.Harmless x s' := by
  have closed : ∀ y, (s.channel y).isOpen = false → (s'.channel y).isOpen = false := by
    intro y hy
    by_contra hn
    simp [ho y (by simpa using hn)] at hy
  have all : AllClosed s → AllClosed s' := by
    intro ha c hcm d hd
    rw [State.getConnectedClientIds, hc] at hcm
    exact closed _ (ha c hcm d (hc ▸ hd))
  cases f with
  | pubAck y msg b l =>
    cases b with
    | some b => exact h.elim
    | none => cases l with
      | isConnected => exact ⟨h.1, all h.2⟩
      | _ => exact h.elim
  | push content b filtered l =>
    cases b with
    | some b => exact h.elim
    | none => exact ⟨h.1.mono fun d hd => closed _ hd, all h.2⟩
  | idle => trivial
  | reply | refuse | close => exact h
  | _ => exact h.elim

theorem harmless_read (ha : c.attributes.clientID = none) (hu : accepting g p = false)
    (hp : ∀ msg, p = .publish msg → msg.qosLevel ≠ .failure → AllClosed s) :
    (channelRead g x c p).Harmless x s := by
  cases p with
  | connect msg =>
    simp only [channelRead, processConnect]
    cases hr : refusal g msg with
    | none => simp [accepting, hr] at hu
    | some code => exact rfl
  | publish msg =>
    simp only [channelRead, processPublish, receivedPublish, ha]
    cases hq : msg.qosLevel with
    | failure => trivial
    | _ => exact ⟨rfl, hp msg rfl (by simp [hq])⟩
  | disconnect => simp only [channelRead, processDisconnect, ha]; trivial
  | subscribe | unsubscribe | pingReq | malformed => exact rfl
  | _ => trivial

/-- The operations of such a handler. -/
inductive Instr.Harmless (x : ChannelId) (s : State) (f : Frame) : Instr → Prop

  | skip : Harmless x s f .skip

  | close : Harmless x s f (.close x)

  | write {q : MqttMessage} : f = .reply x q ∨ f = .refuse x q → Harmless x s f (.write x q)

  | push {y : ChannelId} {q : MqttMessage} : (s.channel y).isOpen = false →
      Harmless x s f (.write y q)

namespace Instr.Harmless

variable (hi : i.Harmless x s f)

include hi

theorem connectionDescriptors :
    (s.exec (.loop x) i).connectionDescriptors = s.connectionDescriptors := by
  rw [State.exec_connectionDescriptors]
  cases hi <;> rfl

theorem alike {c' : Channel} (h : Alike (s.channel y) c') :
    Alike ((s.exec (.loop x) i).channel y) c' := by
  cases hi with
  | skip => exact h
  | close | write | push => exact h.issue_left

theorem sameSent {c' : Channel} (hy : y ≠ x) (h : SameSent (s.channel y) c') :
    SameSent ((s.exec (.loop x) i).channel y) c' := by
  constructor
  · rw [State.exec_isOpen, h.isOpen]
    cases hi <;> simp [hy]
  · rw [State.exec_sent, h.sent]
    cases hi with
    | push =>
      simp only
      rw [if_neg]
      rintro ⟨rfl, ht, -⟩
      exact hy (Thread.loop.inj ht).symm
    | _ => simp [hy]

theorem task {k : Task} {t : Thread} (hk : k ∈ ((s.exec (.loop x) i).channel y).tasks t) :
    k ∈ (s.channel y).tasks t ∨ ((s.exec (.loop x) i).channel y).isOpen = false := by
  rcases tasks_exec hk with hk | ⟨rfl, hy, ⟨q, rfl, rfl⟩ | ⟨rfl, rfl⟩⟩
  · exact .inl hk
  · cases hi with
    | write => exact absurd rfl hy
    | push hc => exact .inr (by rw [State.exec_isOpen]; exact hc)
  · cases hi
    exact absurd rfl hy

theorem isPublish {q : MqttMessage} (hq : i = .write y q) (ho : (s.channel y).isOpen = true)
    (hh : Handles g (s.channel x) f) : q.isPublish = false := by
  subst hq
  cases hi with
  | push hc => rw [hc] at ho; cases ho
  | write hf =>
    rcases hf with rfl | rfl
    · exact hh.1.2.1
    · obtain ⟨msg, code, -, -, rfl⟩ := hh
      rfl

end Instr.Harmless

theorem harmless_next (hr : Registry g s) (ho : f.Of (.loop x)) (hf : f.Harmless x s)
    (hn : next g s (.loop x) choice f = some (i, f')) : f'.Harmless x s ∧ i.Harmless x s f := by
  cases f with
  | idle => cases hn
  | reply y q => cases hf; cases hn; exact ⟨trivial, .write (.inl rfl)⟩
  | refuse y q => cases hf; cases hn; exact ⟨rfl, .write (.inr rfl)⟩
  | close y => cases hf; cases hn; exact ⟨trivial, .close⟩
  | pubAck y msg b l =>
    cases b with
    | some b => exact hf.elim
    | none => cases l with
      | isConnected => cases hn; exact ⟨⟨trivial, hf.2⟩, .skip⟩
      | _ => exact hf.elim
  | push content b filtered l =>
    cases b with
    | some b => exact hf.elim
    | none =>
      obtain ⟨hf, ha⟩ := hf
      obtain ⟨hf', hi⟩ := next_refs (fun c d hd => ⟨(hr.entries c d hd).1, ha.get hd⟩)
        (fun _ _ h => by cases h) ho hf hn
      cases next_statement hn with
      | push => exact ⟨⟨hf', ha⟩, .push (hf.1.last hf.2)⟩
      | filterThrown hh | filterOwn hh | filterOther hh => simp [hasLength] at hh
      | pushEnd => exact ⟨trivial, .skip⟩
      | _ => exact ⟨⟨hf', ha⟩, .skip⟩
  | _ => exact hf.elim

end ImProxy
