import ImProxy.Gateway.Scenario
import ImProxy.Invariant.Visits

/-! # Broadcasts reach everybody

A broadcast decides for each entry of the registry by the client id that the channel
carries at that time. A CONNECT registers its descriptor before it sets the client
id, and a broadcast that visits the entry in between throws. It also misjudges a
channel that is getting another client id. Where it visits no such channel, every
client that stays connected gets the payload exactly once.
-/

set_option autoImplicit false

namespace ImProxy

open Concurrent Transition

variable {g : Gateway} {s s' u t : State} {choice : Choice} {f f' : Frame} {i : Instr}
  {x y p : ChannelId} {a : Action} {as : List Action} {c A content : String} {d e : Descriptor}
  {msg : MqttPublishMessage} {l l' : PushLine}

/-- A client whose CONNECT is handled to its end. -/
structure Established (s : State) (c : String) (d : Descriptor) : Prop where

  registered : s.connectionDescriptors.get c = some d

  state : s.descriptorState d = some .established

  ended : ∀ msg l, s.frame (.loop d.channel) ≠ .connect msg d l

/-- The steps before which a client is registered and its channel is open. -/
def Stays (c : String) (d : Descriptor) : Condition State Action := fun s _ =>
  s.connectionDescriptors.get c = some d ∧ (s.channel d.channel).isOpen = true

def Frame.handlesPublish : Frame → Bool
  | .pubAck _ _ _ _ => true
  | .push _ _ _ _ => true
  | _ => false

def Publishing (p : ChannelId) : Condition State Action := fun s _ =>
  (s.frame (.loop p)).handlesPublish = true

/-- The PUBLISHes that the message being handled on channel `p` has put on the way to `y`. -/
def State.forwarded (s : State) (p y : ChannelId) : List Write :=
  ((s.channel y).flow (.loop p)).filter fun w =>
    w.packet.isPublish && w.request = s.request (.loop p)

/-- The handling of a PUBLISH of client `A` on channel `p` neither throws nor closes `p`, and
each other client that was established when the broadcast loop started and stays to its end gets
the payload exactly once. -/
structure LosesNobody (g : Gateway) (p : ChannelId) (msg : MqttPublishMessage) (A : String)
    (as : List Action) (s t : State) : Prop where

  returns : t.frame (.loop p) = .idle

  isOpen : (t.channel p).isOpen = (s.channel p).isOpen

  delivers : ∀ bs cs u c d, as = bs ++ cs → (gateway g).Path System.always s bs u →
    u.frame (.loop p) = pushReceived g msg (some A) → c ≠ A → Established u c d →
    (gateway g).Path (Stays c d) u cs t →
    t.forwarded p d.channel = [⟨pushMessage g (convertByteBufToString g msg.payload), .loop p,
      t.request (.loop p)⟩]

/-- The descriptor that a step of the broadcast of channel `p` applies the filter to. -/
def State.filters (s : State) (p : ChannelId) (a : Action) : Option Descriptor :=
  if a.thread = some (.loop p) then
    match s.executes a with
    | .push _ _ _ (.filter _ d) => some d
    | _ => none
  else none

/-- The filter finds a client id on the channel. If the channel is open it is the one of the
sender only on a descriptor of the sender, and no other client id is registered with the
channel. -/
def FiltersSafely (p : ChannelId) (A : String) : Condition State Action := fun s a =>
  ∀ d ∈ s.filters p a,
    (s.channel d.channel).attributes.clientID ≠ none ∧
    ((s.channel d.channel).isOpen = true →
      ((s.channel d.channel).attributes.clientID = some A → d.clientID = A) ∧
      ∀ c ∈ s.connectionDescriptors.keys, ∀ e ∈ s.connectionDescriptors.get c,
        e.channel = d.channel → c = d.clientID)

def PublishesSafely (p : ChannelId) (A : String) : Condition State Action := fun s a =>
  Publishing p s a ∧ FiltersSafely p A s a

instance (s : State) : DecidablePred (Publishing p s) := fun _ =>
  inferInstanceAs (Decidable (_ = _))

instance (s : State) : DecidablePred (FiltersSafely p A s) := fun a =>
  inferInstanceAs (Decidable (∀ d ∈ s.filters p a, _))

instance (s : State) : DecidablePred (PublishesSafely p A s) := fun _ =>
  inferInstanceAs (Decidable (_ ∧ _))

theorem Publishing.busy (h : Publishing p s a) : s.frame (.loop p) ≠ .idle := by
  intro hf
  simp [Publishing, hf, Frame.handlesPublish] at h

/-! ## The handler returns -/

def Handling (g : Gateway) (p : ChannelId) (msg : MqttPublishMessage) (A : String)
    (f : Frame) : Prop :=
  f = .idle ∨ (∃ l, f = .pubAck p msg (some A) l) ∨
    ∃ l, f = .push (convertByteBufToString g msg.payload) (some A) true l

theorem handling_next (hf : Handling g p msg A (s.frame (.loop p)))
    (hc : FiltersSafely p A s (.run (.loop p) choice))
    (hn : next g s (.loop p) choice (s.frame (.loop p)) = some (i, f)) :
    Handling g p msg A f ∧ ((s.exec (.loop p) i).channel p).isOpen = (s.channel p).isOpen := by
  simp only [FiltersSafely, State.filters, Action.thread, if_true, State.executes] at hc
  generalize s.frame (.loop p) = f₀ at hf hc hn
  rcases hf with rfl | ⟨l, rfl⟩ | ⟨l, rfl⟩
  · cases hn
  · rw [State.exec_isOpen]
    cases next_statement hn with
    | notConnected | pubAck => exact ⟨.inr (.inr ⟨_, rfl⟩), rfl⟩
    | isConnected | pubAckFound => exact ⟨.inr (.inl ⟨_, rfl⟩), rfl⟩
  · rw [State.exec_isOpen]
    cases next_statement hn with
    | pushEnd => exact ⟨.inl rfl, rfl⟩
    | filterThrown _ hnone => exact absurd hnone (hc _ rfl).1
    | _ => exact ⟨.inr (.inr ⟨_, rfl⟩), rfl⟩

/-- While a PUBLISH is handled, its handler goes on and the channel stays as open as it was. -/
theorem handling_path (hr : (gateway g).Reachable s)
    (hf : Handling g p msg A (s.frame (.loop p)))
    (h : (gateway g).Path (PublishesSafely p A) s as t) :
    Handling g p msg A (t.frame (.loop p)) ∧
      (t.channel p).isOpen = (s.channel p).isOpen := by
  have : (gateway g).Reachable t ∧ Handling g p msg A (t.frame (.loop p)) ∧
      (t.channel p).isOpen = (s.channel p).isOpen := by
    refine h.invariant (P := fun t => (gateway g).Reachable t ∧
      Handling g p msg A (t.frame (.loop p)) ∧ (t.channel p).isOpen = (s.channel p).isOpen)
      ⟨hr, hf, rfl⟩ ?_
    rintro a u v ⟨hru, hfu, hou⟩ ⟨hpub, hc⟩ hs
    refine ⟨hru.step hs, ?_⟩
    rcases busy_step (reachable_neverNotified hru) (reachable_owned hru) hpub.busy
      (gateway_step.mp hs) with ⟨choice, rfl⟩ | ⟨hf', ts, hts⟩
    · cases gateway_step.mp hs with
      | run hn =>
        obtain ⟨hf', ho'⟩ := handling_next hfu hc hn
        rw [State.setFrame_frame_self, State.setFrame_channel]
        exact ⟨hf', ho'.trans hou⟩
    · rw [hf', hts]
      exact ⟨hfu, hou⟩
  exact this.2

/-! ## Attributes stay -/

/-- A channel with the attributes a broadcast looks for. -/
def Ready (c : Channel) : Prop :=
  c.attributes.app.isSome = true ∧ c.attributes.imId.isSome = true

theorem Established.ready (hr : (gateway g).Reachable s) (h : Established s c d) :
    Ready (s.channel d.channel) := by
  have hl := reachable_lifecycle hr d.channel
  have hpub := ((reachable_registry hr).entries c d h.registered).2
  have past : ∀ k < 16, (s.channel d.channel).past (s.frame (.loop d.channel)) k ≠ [] := by
    intro k hk
    cases hc : (s.frame (.loop d.channel)).isConnect with
    | false =>
      rw [Channel.past_of_lt (by rw [Lifecycle.stage_eq hc]; exact hk)]
      exact hpub.connects_ne_nil
    | true =>
      -- a later CONNECT of the channel leaves the earlier ones past all stages
      obtain ⟨m, e, l, hf⟩ := Frame.isConnect_iff.mp hc
      obtain ⟨hlast, hlen, -, -, he⟩ := hl.connecting _ _ _ hf
      obtain ⟨n, hn, hd⟩ := hpub.connects
      have hlt := (List.getElem?_eq_some_iff.mp hn).1
      have hne : d.serial ≠ e.serial := by
        intro hs
        rw [List.getLast?_eq_getElem?, hlen, Nat.add_sub_cancel, ← hs, hn] at hlast
        cases hlast
        rw [← hs, ← hd] at he
        exact h.ended _ _ (he ▸ hf)
      have hdrop : (s.channel d.channel).connects.dropLast ≠ [] := by
        intro hnil
        have := congrArg List.length hnil
        rw [List.length_dropLast] at this
        simp at this
        omega
      unfold Channel.past
      split_ifs
      · exact hdrop
      · exact hpub.connects_ne_nil
  exact ⟨hl.app (past 13 (by decide)), hl.imId (past 14 (by decide))⟩

theorem ready_step (hr : (gateway g).Reachable s) (h : Step g s a s')
    (hy : Ready (s.channel y)) : Ready (s'.channel y) := by
  have hch := h.onChannel y
  generalize s'.channel y = c at hch
  cases hch with
  | still _ | read _ | event _ _ => exact hy
  | task _ _ => simpa [Ready] using hy
  | @run t choice i f hn =>
    have ho := reachable_owned hr t
    unfold Ready
    rw [State.exec_attributes]
    cases i with
    | attr x b =>
      simp only
      split_ifs with hx
      · generalize hf : s.frame t = f₀ at hn ho
        cases next_statement hn with
        | app =>
          obtain ⟨rfl, -⟩ := ho.connect
          obtain ⟨hlast, -⟩ := (reachable_lifecycle hr _).connecting _ _ _ hf
          obtain ⟨v, hv, -⟩ :=
            ((reachable_lifecycle hr _).passed _ (List.mem_of_getLast? hlast)).willTopic
          exact ⟨by simp [Attributes.set, hv], hy.2⟩
        | imId =>
          obtain ⟨rfl, -⟩ := ho.connect
          obtain ⟨hlast, -⟩ := (reachable_lifecycle hr _).connecting _ _ _ hf
          obtain ⟨v, hv, -⟩ :=
            ((reachable_lifecycle hr _).passed _ (List.mem_of_getLast? hlast)).willMessage
          exact ⟨hy.1, by simp [Attributes.set, hv]⟩
        | keepAlive | cleanSession | clientID | token => exact hy
      · exact hy
    | _ => exact hy

/-! ## Delivery to one client -/

def PushLine.cursor : PushLine → Option Cursor
  | .iterator => none
  | .loop it => some it
  | .filter it _ => some it
  | .app it _ => some it
  | .imId it _ => some it
  | .write it _ => some it

/-- The entries a broadcast is done with. -/
def PushLine.done : PushLine → List (String × Descriptor)
  | .iterator => []
  | .loop it => it.returned
  | .filter it _ => it.returned.dropLast
  | .app it _ => it.returned.dropLast
  | .imId it _ => it.returned.dropLast
  | .write it _ => it.returned.dropLast

def PushLine.passed : PushLine → Option Descriptor
  | .app _ d => some d
  | .imId _ d => some d
  | .write _ d => some d
  | _ => none

/-- A broadcast of channel `p` while a client stays: it has put the payload on the way to the
client if and only if it is done with the client's entry. -/
structure Watched (g : Gateway) (p : ChannelId) (content c : String) (d : Descriptor)
    (s : State) (l : PushLine) : Prop where

  created : ∀ it, l.cursor = some it → it.created.get c = some d

  fetched : ∀ it, l.cursor = some it → ∀ e ∈ it.fetched, e.1 = c → e.2 = d

  passed : ∀ e, l.passed = some e → e.channel = d.channel → e = d

  forwarded : s.forwarded p d.channel =
    if (c, d) ∈ l.done then [⟨pushMessage g content, .loop p, s.request (.loop p)⟩] else []

theorem forwarded_step (hr : (gateway g).Reachable s) (ho : (s.channel y).isOpen = true)
    (hreq : s'.request (.loop p) = s.request (.loop p)) (h : Step g s a s') :
    s'.forwarded p y = s.forwarded p y ++ (s.adds g a (.loop p) y).filter fun w =>
      w.packet.isPublish && w.request = s.request (.loop p) := by
  unfold State.forwarded
  rw [(flow_step (reachable_registry hr) h y _).2 ho, List.filter_append, hreq]

theorem Watched.start (hr : (gateway g).Reachable s)
    (hf : s.frame (.loop p) = .push content (some A) true .iterator) :
    Watched g p content c d s .iterator := by
  refine ⟨by simp [PushLine.cursor], by simp [PushLine.cursor], by simp [PushLine.passed], ?_⟩
  simp only [PushLine.done, List.not_mem_nil, if_false]
  refine List.filter_eq_nil_iff.mpr fun w hw hk => ?_
  simp only [Bool.and_eq_true, decide_eq_true_eq] at hk
  obtain ⟨m, hm, -⟩ := reachable_answered hr p d.channel w hw
  have hlt := (List.getElem?_eq_some_iff.mp hm).1
  have hv := (visits_marks g p).reachable hr d.channel w hw hk.1
    (by rw [hk.2] at hlt ⊢; simp only [State.request] at hlt ⊢; omega)
  rw [hf] at hv
  exact hv

theorem Watched.quiet (hr : (gateway g).Reachable s) (ho : (s.channel d.channel).isOpen = true)
    (hw : Watched g p content c d s l) (h : Step g s a s')
    (hreq : s'.request (.loop p) = s.request (.loop p))
    (hi : s.adds g a (.loop p) d.channel = [])
    (hcr : ∀ it, l'.cursor = some it → it.created.get c = some d)
    (hfe : ∀ it, l'.cursor = some it → ∀ e ∈ it.fetched, e.1 = c → e.2 = d)
    (hpa : ∀ e, l'.passed = some e → e.channel = d.channel → e = d)
    (hdo : (c, d) ∈ l'.done ↔ (c, d) ∈ l.done) : Watched g p content c d s' l' := by
  refine ⟨hcr, hfe, hpa, ?_⟩
  rw [forwarded_step hr ho hreq h, hi, hw.forwarded, hreq]
  simp only [hdo, List.filter_nil, List.append_nil]

theorem Watched.foreign (hr : (gateway g).Reachable s)
    (ho : (s.channel d.channel).isOpen = true) (hw : Watched g p content c d s l)
    (h : Step g s a s') (hreq : s'.request (.loop p) = s.request (.loop p))
    (ha : ∀ choice, a ≠ .run (.loop p) choice) : Watched g p content c d s' l := by
  refine hw.quiet hr ho h hreq ?_ hw.created hw.fetched hw.passed Iff.rfl
  refine List.eq_nil_iff_forall_not_mem.mpr fun w hw => ?_
  obtain ⟨choice, q, f, rfl, -⟩ := mem_adds.mp hw
  exact ha choice rfl

theorem mem_returned {it : Cursor} (hd : d.clientID = c)
    (he : it.returned.getLast? = some (e.clientID, e)) :
    (c, d) ∈ it.returned ↔ (c, d) ∈ it.returned.dropLast ∨ e = d := by
  conv_lhs => rw [← List.dropLast_append_getLast? _ he]
  simp only [List.mem_append, List.mem_singleton, Prod.mk.injEq]
  constructor
  · rintro (h | ⟨-, rfl⟩)
    · exact .inl h
    · exact .inr rfl
  · rintro (h | rfl)
    · exact .inl h
    · exact .inr ⟨hd.symm, rfl⟩

section Run

variable (hr : (gateway g).Reachable s) (ho : (s.channel d.channel).isOpen = true)
  (hst : s.connectionDescriptors.get c = some d) (hw : Watched g p content c d s l)
  (hn : next g s (.loop p) choice (s.frame (.loop p)) = some (i, f))

include hr ho hw hn

theorem Watched.still (hi : ∀ q, i ≠ .write d.channel q)
    (hcr : ∀ it, l'.cursor = some it → it.created.get c = some d)
    (hfe : ∀ it, l'.cursor = some it → ∀ e ∈ it.fetched, e.1 = c → e.2 = d)
    (hpa : ∀ e, l'.passed = some e → e.channel = d.channel → e = d)
    (hdo : (c, d) ∈ l'.done ↔ (c, d) ∈ l.done) :
    Watched g p content c d ((s.exec (.loop p) i).setFrame (.loop p) f) l' :=
  hw.quiet hr ho (.run hn) (by simp [State.request]) (adds_eq_nil hn hi) hcr hfe hpa hdo

theorem Watched.moved (hi : ∀ q, i ≠ .write d.channel q) (hcur : l'.cursor = l.cursor)
    (hpa : ∀ e, l'.passed = some e → e.channel = d.channel → e = d)
    (hdo : (c, d) ∈ l'.done ↔ (c, d) ∈ l.done) :
    Watched g p content c d ((s.exec (.loop p) i).setFrame (.loop p) f) l' :=
  hw.still hr ho hn hi (fun it h => hw.created it (hcur ▸ h))
    (fun it h => hw.fetched it (hcur ▸ h)) hpa hdo

include hst

theorem Watched.iterator (hi : ∀ q, i ≠ .write d.channel q) (hl : l.done = []) :
    Watched g p content c d ((s.exec (.loop p) i).setFrame (.loop p) f)
      (.loop (Iterator.create s.connectionDescriptors)) := by
  refine hw.still hr ho hn hi ?_ ?_ (by simp [PushLine.passed]) ?_
  · rintro _ ⟨⟩
    exact hst
  · rintro _ ⟨⟩ e he
    simp [Iterator.create, Iterator.fetched] at he
  · rw [hl]
    simp [PushLine.done, Iterator.create]

theorem Watched.fetch {it it' : Cursor} {c' : String} (hi : ∀ q, i ≠ .write d.channel q)
    (hl : l = .loop it) (hit : it.fetch s.connectionDescriptors c' = some it') :
    Watched g p content c d ((s.exec (.loop p) i).setFrame (.loop p) f) (.loop it') := by
  subst hl
  obtain ⟨v, hv, -, hcr, hret, hpend⟩ := Iterator.fetch_eq_some hit
  refine hw.still hr ho hn hi ?_ ?_ (by simp [PushLine.passed]) ?_
  · rintro _ ⟨⟩
    rw [hcr]
    exact hw.created it rfl
  · rintro _ ⟨⟩ e he hec
    rw [Iterator.fetched, hret, hpend, ← List.append_assoc, List.mem_append,
      List.mem_singleton] at he
    rcases he with he | rfl
    · exact hw.fetched it rfl e he hec
    · cases hec
      exact Option.some.inj (hv.symm.trans hst)
  · simp only [PushLine.done, hret]

omit hst

theorem Watched.advanced {it it' : Cursor} {c' : String} (hi : ∀ q, i ≠ .write d.channel q)
    (hl : l = .loop it) (hit : it.next = some ((c', e), it')) :
    Watched g p content c d ((s.exec (.loop p) i).setFrame (.loop p) f) (.filter it' e) := by
  subst hl
  obtain ⟨hpend, hcr, hret⟩ := Iterator.next_eq_some hit
  refine hw.still hr ho hn hi ?_ ?_ (by simp [PushLine.passed]) ?_
  · rintro _ ⟨⟩
    rw [hcr]
    exact hw.created it rfl
  · rintro _ ⟨⟩ e he hec
    refine hw.fetched it rfl e ?_ hec
    simpa [Iterator.fetched, hret, hpend] using he
  · simp only [PushLine.done, hret, List.dropLast_concat]

theorem Watched.skipped {it : Cursor} (hi : ∀ q, i ≠ .write d.channel q) (hd : d.clientID = c)
    (hlast : it.returned.getLast? = some (e.clientID, e)) (hcur : l.cursor = some it)
    (hdo : l.done = it.returned.dropLast) (hne : e ≠ d) :
    Watched g p content c d ((s.exec (.loop p) i).setFrame (.loop p) f) (.loop it) := by
  refine hw.moved hr ho hn hi hcur.symm (by simp [PushLine.passed]) ?_
  rw [hdo]
  simp [PushLine.done, mem_returned hd hlast, hne]

theorem Watched.push {it : Cursor} (hi : i = .write d.channel (pushMessage g content))
    (hd : d.clientID = c) (hlast : it.returned.getLast? = some (d.clientID, d))
    (hl : l = .write it d) :
    Watched g p content c d ((s.exec (.loop p) i).setFrame (.loop p) f) (.loop it) := by
  subst hl hi
  have hadd : s.adds g (.run (.loop p) choice) (.loop p) d.channel =
      [⟨pushMessage g content, .loop p, s.request (.loop p)⟩] := by
    simp [State.adds, State.writes, hn]
  have hreq : ((s.exec (.loop p) (.write d.channel (pushMessage g content))).setFrame
      (.loop p) f).request (.loop p) = s.request (.loop p) := by simp [State.request]
  have hnew : (c, d) ∉ it.returned.dropLast := hd ▸ Iterator.last_not_mem hlast
  have hp : (pushMessage g content).isPublish = true := rfl
  refine ⟨fun it h => hw.created it h, fun it h => hw.fetched it h, by simp [PushLine.passed], ?_⟩
  rw [forwarded_step hr ho hreq (.run hn), hadd, hw.forwarded, hreq]
  simp [PushLine.done, hnew, mem_returned hd hlast, hp]

theorem Watched.finish {it : Cursor} (hst : s.connectionDescriptors.get c = some d)
    (hi : ∀ q, i ≠ .write d.channel q) (hl : l = .loop it)
    (he : it.Exhausted s.connectionDescriptors) :
    ((s.exec (.loop p) i).setFrame (.loop p) f).forwarded p d.channel =
      [⟨pushMessage g content, .loop p, s.request (.loop p)⟩] := by
  subst hl
  have hd : (c, d) ∈ it.returned := he.returned (hw.created it rfl) hst
  rw [forwarded_step hr ho (by simp [State.request]) (.run hn), adds_eq_nil hn hi, hw.forwarded]
  simp [PushLine.done, hd]

end Run

theorem Watched.run (hr : (gateway g).Reachable s) (hA : A ≠ "") (hcA : c ≠ A)
    (hf : s.frame (.loop p) = .push content (some A) true l)
    (hst : s.connectionDescriptors.get c = some d) (ho : (s.channel d.channel).isOpen = true)
    (hready : Ready (s.channel d.channel)) (hc : FiltersSafely p A s (.run (.loop p) choice))
    (hw : Watched g p content c d s l)
    (hn : next g s (.loop p) choice (s.frame (.loop p)) = some (i, f)) :
    (∃ l', f = .push content (some A) true l' ∧
      Watched g p content c d ((s.exec (.loop p) i).setFrame (.loop p) f) l') ∨
    f = .idle ∧ ((s.exec (.loop p) i).setFrame (.loop p) f).forwarded p d.channel =
      [⟨pushMessage g content, .loop p, s.request (.loop p)⟩] := by
  have hid := ((reachable_registry hr).entries c d hst).1
  have hrefs := (reachable_registry hr).refs (.loop p)
  have hlen : (true && hasLength (some A)) = true := by simpa [hasLength] using hA
  simp only [FiltersSafely, State.filters, Action.thread, if_true, State.executes] at hc
  have hn₀ := hn
  rw [hf] at hn hrefs hc
  cases next_statement hn with
  | pushIterator => exact .inl ⟨_, rfl, hw.iterator hr ho hst hn₀ (by simp) rfl⟩
  | pushFetch hit => exact .inl ⟨_, rfl, hw.fetch hr ho hst hn₀ (by simp) rfl hit⟩
  | pushNext hit => exact .inl ⟨_, rfl, hw.advanced hr ho hn₀ (by simp) rfl hit⟩
  | pushEnd he => exact .inr ⟨rfl, hw.finish hr ho hn₀ hst (by simp) rfl he⟩
  | filterThrown _ hnone => exact absurd hnone (hc _ rfl).1
  | filterOff hoff => simp [hlen] at hoff
  | @filterOwn _ _ _ it e _ hown =>
    have hne : e ≠ d := by
      rintro rfl
      exact hcA (hid.symm.trans (((hc e rfl).2 ho).1 hown))
    exact .inl ⟨_, rfl, hw.skipped hr ho hn₀ (by simp) hid hrefs.2 rfl rfl hne⟩
  | @filterOther _ _ _ it e _ _ _ =>
    refine .inl ⟨_, rfl, hw.moved hr ho hn₀ (by simp) rfl ?_ Iff.rfl⟩
    rintro _ ⟨⟩ hch
    have hce : c = e.clientID := ((hc e rfl).2 (hch ▸ ho)).2 c
      (Finmap.mem_keys.mpr (Finmap.mem_of_lookup_eq_some hst)) d hst hch.symm
    exact hw.fetched it rfl (e.clientID, e)
      (List.mem_append_left _ (List.mem_of_getLast? hrefs.2)) hce.symm
  | pushApp _ => exact .inl ⟨_, rfl, hw.moved hr ho hn₀ (by simp) rfl hw.passed Iff.rfl⟩
  | pushImId _ => exact .inl ⟨_, rfl, hw.moved hr ho hn₀ (by simp) rfl hw.passed Iff.rfl⟩
  | @pushNoApp _ _ _ it e hno =>
    have hne : e ≠ d := by
      rintro rfl
      simp [hready.1] at hno
    exact .inl ⟨_, rfl, hw.skipped hr ho hn₀ (by simp) hid hrefs.2 rfl rfl hne⟩
  | @pushNoImId _ _ _ it e hno =>
    have hne : e ≠ d := by
      rintro rfl
      simp [hready.2] at hno
    exact .inl ⟨_, rfl, hw.skipped hr ho hn₀ (by simp) hid hrefs.2 rfl rfl hne⟩
  | @push _ _ _ it e =>
    by_cases hch : e.channel = d.channel
    · obtain rfl := hw.passed e rfl hch
      exact .inl ⟨_, rfl, hw.push hr ho hn₀ rfl hid hrefs.2 rfl⟩
    · have hne : e ≠ d := fun he => hch (he ▸ rfl)
      refine .inl ⟨_, rfl, hw.skipped hr ho hn₀ (fun q he => ?_) hid hrefs.2 rfl rfl hne⟩
      injection he with hy
      exact hch hy

/-- A client that is established when the broadcast loop starts and stays to its end. -/
theorem delivered_path (hr : (gateway g).Reachable s) (hA : A ≠ "") (hcA : c ≠ A)
    (hf : s.frame (.loop p) = .push content (some A) true .iterator) (he : Established s c d)
    (h : (gateway g).Path (fun s a => PublishesSafely p A s a ∧ Stays c d s a) s as t)
    (ht : t.frame (.loop p) = .idle) :
    t.forwarded p d.channel = [⟨pushMessage g content, .loop p, t.request (.loop p)⟩] := by
  have : (gateway g).Reachable t ∧ Ready (t.channel d.channel) ∧
      ((∃ l, t.frame (.loop p) = .push content (some A) true l ∧ Watched g p content c d t l) ∨
        t.frame (.loop p) = .idle ∧ t.forwarded p d.channel =
          [⟨pushMessage g content, .loop p, t.request (.loop p)⟩]) := by
    refine h.invariant (P := fun t => (gateway g).Reachable t ∧ Ready (t.channel d.channel) ∧
      ((∃ l, t.frame (.loop p) = .push content (some A) true l ∧
        Watched g p content c d t l) ∨ t.frame (.loop p) = .idle ∧ t.forwarded p d.channel =
          [⟨pushMessage g content, .loop p, t.request (.loop p)⟩]))
      ⟨hr, he.ready hr, .inl ⟨_, hf, .start hr hf⟩⟩ ?_
    rintro a u v ⟨hru, hready, hu⟩ ⟨⟨hpub, hc⟩, hst, ho⟩ hs
    have hstep := gateway_step.mp hs
    refine ⟨hru.step hs, ready_step hru hstep hready, ?_⟩
    obtain ⟨l, hfu, hw⟩ := hu.resolve_right fun hi => hpub.busy hi.1
    by_cases ha : ∃ choice, a = .run (.loop p) choice
    · obtain ⟨choice, rfl⟩ := ha
      cases hstep with
      | run hn =>
        rw [State.setFrame_frame_self]
        refine (hw.run hru hA hcA hfu hst ho hready hc hn).imp_right fun ⟨hi, hfw⟩ => ⟨hi, ?_⟩
        simpa [State.request] using hfw
    · obtain ⟨hf', ts, hts⟩ := (busy_step (reachable_neverNotified hru) (reachable_owned hru)
        hpub.busy hstep).resolve_left ha
      refine .inl ⟨l, hf'.trans hfu, hw.foreign hru ho hstep ?_ fun choice hch => ha ⟨choice, hch⟩⟩
      simp only [State.request, hts]
  obtain ⟨-, -, ⟨l, hl, -⟩ | ⟨-, hfw⟩⟩ := this
  · simp [ht] at hl
  · exact hfw

/-! ## The property -/

/-- On runs whose filters work, the handling of a PUBLISH of a connected client loses nobody. -/
theorem publish_loses_nobody (hr : (gateway g).Reachable s)
    (hf : s.frame (.loop p) = .pubAck p msg (some A) .isConnected)
    (h : (gateway g).Path (PublishesSafely p A) s as t)
    (ht : (t.frame (.loop p)).handlesPublish = false) : LosesNobody g p msg A as s t := by
  have hA : A ≠ "" := by
    have hh := reachable_handles hr p
    rw [hf] at hh
    exact clientID_ne (reachable_lifecycle hr p) hh.2.symm
  obtain ⟨hfr, hopen⟩ := handling_path hr (.inr (.inl ⟨_, hf⟩)) h
  have hidle : t.frame (.loop p) = .idle := by
    rcases hfr with hi | ⟨l, hl⟩ | ⟨l, hl⟩
    · exact hi
    · simp [hl, Frame.handlesPublish] at ht
    · simp [hl, Frame.handlesPublish] at ht
  refine ⟨hidle, hopen, ?_⟩
  rintro bs cs u c d rfl hbs hu hcA he hst
  obtain ⟨v, hv, hcs⟩ := h.split
  obtain rfl := hv.functional hbs
  exact delivered_path (hr.path hv) hA hcA hu he (hcs.and hst) hidle

/-- Clients 0 and 1 are connected, and 0 sends a PUBLISH. -/
def publishBegins : List Action :=
  join 0 "a" ++ join 1 "b" ++ [.read 0 (.publish (publishOf .atLeastOnce 1))]

def publishToBoth : List Action :=
  proceed 0 4 ++ [.run (.loop 0) (.fetch "b"), .run (.loop 0) (.fetch "a")] ++ proceed 0 7 ++
    [.run (.loop 0) .finish]

theorem publish_loses_nobody_publishToBoth :
    LosesNobody ascii 0 (publishOf .atLeastOnce 1) "a" publishToBoth (after publishBegins)
      (after (publishBegins ++ publishToBoth)) :=
  publish_loses_nobody (reachable_after (by decide)) rfl (path_after (by decide) (by decide))
    (by decide)

/-- Clients 0 and 1 are connected, the CONNECT of channel 2 has put its descriptor into the
registry, and 0 sends a PUBLISH. -/
def connectBegins : List Action :=
  join 0 "a" ++ join 1 "b" ++ .read 2 (.connect (connectAs "c")) :: proceed 2 2 ++
    [.read 0 (.publish (publishOf .atLeastOnce 1))]

def publishToNew : List Action :=
  proceed 0 4 ++ .run (.loop 0) (.fetch "c") :: proceed 0 2

theorem publish_throws_at_connecting : ∃ s t, (gateway ascii).Reachable s ∧
    s.frame (.loop 0) = .pubAck 0 (publishOf .atLeastOnce 1) (some "a") .isConnected ∧
    (gateway ascii).Path (Publishing 0) s publishToNew t ∧
    (t.frame (.loop 0)).handlesPublish = false ∧
    ¬LosesNobody ascii 0 (publishOf .atLeastOnce 1) "a" publishToNew s t := by
  refine ⟨after connectBegins, after (connectBegins ++ publishToNew), reachable_after (by decide),
    rfl, path_after (by decide) (by decide), by decide, fun h => ?_⟩
  have := Frame.isIdle_iff.mpr h.returns
  exact absurd this (by decide)

end ImProxy
