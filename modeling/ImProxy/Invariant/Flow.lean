import ImProxy.Invariant.History

/-! # The flow from a thread to a channel

The packets a thread writes to a channel reach it in the order of the writes: those
already on the channel come first, those still posted to its event loop follow. A
step appends what the thread writes; apart from that a flow only loses packets, and
it loses none while the channel is open. Every packet answers a message that the
writing event loop has received.
-/

set_option autoImplicit false

namespace ImProxy

open Concurrent Transition

variable {g : Gateway} {s s' : State} {t u : Thread} {choice : Choice} {f f' : Frame} {i : Instr}
  {x y : ChannelId} {a : Action} {d : Descriptor} {c : Channel} {w : Write} {p : MqttMessage}

/-! ## Flows -/

def Task.write? : Task → Option Write
  | .write w => some w
  | .close => none

/-- The packets of a thread on a channel and on the way to it. -/
def Channel.flow (c : Channel) (t : Thread) : List Write :=
  c.sent.filter (·.source = t) ++ (c.tasks t).filterMap Task.write?

def State.writes (g : Gateway) (s : State) (a : Action) (y : ChannelId) : Option Write :=
  match a with
  | .run t choice =>
    match next g s t choice (s.frame t) with
    | some (.write z p, _) => if z = y then some ⟨p, t, s.request t⟩ else none
    | _ => none
  | _ => none

/-- What a step adds to the flow from a thread to a channel. -/
def State.adds (g : Gateway) (s : State) (a : Action) (t : Thread) (y : ChannelId) : List Write :=
  (s.writes g a y).toList.filter (·.source = t)

theorem mem_adds : w ∈ s.adds g a t y ↔ ∃ choice p f, a = .run t choice ∧
    next g s t choice (s.frame t) = some (.write y p, f) ∧ w = ⟨p, t, s.request t⟩ := by
  simp only [State.adds, State.writes, List.mem_filter, Option.mem_toList, decide_eq_true_eq]
  constructor
  · rintro ⟨hw, rfl⟩
    cases a with
    | run u choice =>
      simp only at hw
      split at hw
      · next z p f hn =>
        split_ifs at hw with hz
        cases hw
        exact ⟨choice, p, f, rfl, hz ▸ hn, rfl⟩
      · cases hw
    | _ => cases hw
  · rintro ⟨choice, p, f, rfl, hn, rfl⟩
    simp [hn]

theorem adds_eq_nil (hn : next g s t choice (s.frame t) = some (i, f))
    (hi : ∀ q, i ≠ .write y q) : s.adds g (.run t choice) t y = [] := by
  refine List.eq_nil_iff_forall_not_mem.mpr fun w hw => ?_
  obtain ⟨_, q, f', hch, hn', -⟩ := mem_adds.mp hw
  cases hch
  cases hn.symm.trans hn'
  exact hi q rfl

theorem adds_pairwise (R : Write → Write → Prop) : (s.adds g a t y).Pairwise R := by
  unfold State.adds
  cases s.writes g a y with
  | none => exact List.Pairwise.nil
  | some w => exact (List.pairwise_singleton R w).filter _

theorem flow_exec (hr : Registry g s)
    (hn : next g s u choice (s.frame u) = some (i, f)) :
    (((s.exec u i).channel y).flow t).Sublist
        ((s.channel y).flow t ++ s.adds g (.run u choice) t y) ∧
      ((s.channel y).isOpen = true → ((s.exec u i).channel y).flow t =
        (s.channel y).flow t ++ s.adds g (.run u choice) t y) := by
  have same : s.adds g (.run u choice) t y = [] →
      ((s.exec u i).channel y).flow t = (s.channel y).flow t →
      (((s.exec u i).channel y).flow t).Sublist
          ((s.channel y).flow t ++ s.adds g (.run u choice) t y) ∧
        ((s.channel y).isOpen = true → ((s.exec u i).channel y).flow t =
          (s.channel y).flow t ++ s.adds g (.run u choice) t y) := by
    intro ha hf
    rw [ha, List.append_nil, hf]
    exact ⟨List.Sublist.refl _, fun _ => rfl⟩
  cases i with
  | write z p =>
    have hadds : s.adds g (.run u choice) t y =
        if z = y ∧ u = t then [⟨p, u, s.request u⟩] else [] := by
      simp only [State.adds, State.writes, hn]
      by_cases hz : z = y <;> by_cases hu : u = t <;> simp [hz, hu]
    by_cases hy : z = y ∧ u = t
    · obtain ⟨rfl, rfl⟩ := hy
      rw [hadds, if_pos ⟨rfl, rfl⟩]
      by_cases hu : u = .loop z
      · -- the own event loop has no queue on its channel
        subst hu
        simp only [Channel.flow, State.exec_sent, State.exec_tasks, hr.own, true_and, ne_eq,
          not_true_eq_false, if_false]
        split_ifs with ho <;> simp [ho]
      · have hf : ((s.exec u (.write z p)).channel z).flow u =
            (s.channel z).flow u ++ [⟨p, u, s.request u⟩] := by
          simp [Channel.flow, State.exec_sent, State.exec_tasks, hu, Task.write?]
        rw [hf]
        exact ⟨List.Sublist.refl _, fun _ => rfl⟩
    · have ht : ((s.exec u (.write z p)).channel y).tasks t = (s.channel y).tasks t := by
        rw [State.exec_tasks]
        exact if_neg fun h => hy ⟨h.1.symm, h.2.1.symm⟩
      have hs : ((s.exec u (.write z p)).channel y).sent.filter (·.source = t) =
          (s.channel y).sent.filter (·.source = t) := by
        rw [State.exec_sent]
        simp only
        split_ifs with ho
        · have hu : u ≠ t := fun hu => hy ⟨ho.1.symm, hu⟩
          simp [hu]
        · rfl
      exact same (by rw [hadds, if_neg hy]) (by rw [Channel.flow, Channel.flow, ht, hs])
  | close z =>
    refine same (by simp [State.adds, State.writes, hn]) ?_
    simp only [Channel.flow, State.exec_sent, State.exec_tasks]
    split_ifs <;> simp [Task.write?]
  | _ =>
    refine same (by simp [State.adds, State.writes, hn]) ?_
    simp only [Channel.flow, State.exec_sent, State.exec_tasks]

theorem flow_step (hr : Registry g s) (h : Step g s a s') (y : ChannelId) (t : Thread) :
    ((s'.channel y).flow t).Sublist ((s.channel y).flow t ++ s.adds g a t y) ∧
      ((s.channel y).isOpen = true →
        (s'.channel y).flow t = (s.channel y).flow t ++ s.adds g a t y) := by
  have quiet : (∀ u choice, a ≠ .run u choice) → s.adds g a t y = [] := fun ha =>
    List.eq_nil_iff_forall_not_mem.mpr fun w hw => by
      obtain ⟨choice, -, -, rfl, -⟩ := mem_adds.mp hw
      exact ha t choice rfl
  have hc := h.onChannel y
  generalize s'.channel y = c at hc
  cases hc with
  | still ha | event ha _ =>
    rw [quiet ha, List.append_nil]
    exact ⟨List.Sublist.refl _, fun _ => rfl⟩
  | read _ =>
    rw [quiet nofun, List.append_nil]
    exact ⟨List.Sublist.refl _, fun _ => rfl⟩
  | @task v k ks _ hk =>
    rw [quiet nofun, List.append_nil]
    simp only [Channel.flow, Function.update_apply]
    cases k with
    | close =>
      have : ∀ u, (if u = v then ks else (s.channel y).tasks u).filterMap Task.write? =
          ((s.channel y).tasks u).filterMap Task.write? := by
        intro u
        split_ifs with hu
        · rw [hu, hk]; rfl
        · rfl
      rw [this]
      exact ⟨List.Sublist.refl _, fun _ => rfl⟩
    | write w =>
      have hw : w.source = v := (hr.packets y v w (by simp [hk])).1
      by_cases ht : t = v
      · subst ht
        rw [if_pos rfl, hk, Channel.run_write_sent]
        split_ifs with ho <;> simp [Task.write?, hw, ho]
      · rw [if_neg ht, Channel.run_write_sent]
        have hne : v ≠ t := Ne.symm ht
        split_ifs <;> simp [hw, hne]
  | run hn => exact flow_exec hr hn

/-! ## Answers -/

theorem prefix_step {β : Type*} (φ : Channel → List β)
    (same : ∀ c c' : Channel, c'.received = c.received → c'.connects = c.connects → φ c' = φ c)
    (receive : ∀ (c : Channel) q, φ c <+: φ (c.receive g q)) (h : Step g s a s')
    (y : ChannelId) : φ (s.channel y) <+: φ (s'.channel y) := by
  have quiet : ∀ c c' : Channel, c'.received = c.received → c'.connects = c.connects →
      φ c <+: φ c' := fun c c' hr hc => by rw [same c c' hr hc]
  have hc := h.onChannel y
  generalize s'.channel y = c at hc
  cases hc with
  | still _ | event _ _ => exact quiet _ _ rfl rfl
  | read _ => exact receive _ _
  | task _ _ => exact quiet _ _ (by simp) (by simp [Channel.connects])
  | run _ => exact quiet _ _ (by simp) (by simp)

theorem received_isPrefix (h : Step g s a s') (y : ChannelId) :
    (s.channel y).received <+: (s'.channel y).received :=
  prefix_step Channel.received (fun _ _ hr _ => hr) (fun _ _ => List.prefix_append _ _) h y

theorem received_getElem? {m : Inbound} {k : ℕ} (h : Step g s a s')
    (hm : (s.channel y).received[k]? = some m) : (s'.channel y).received[k]? = some m := by
  obtain ⟨ms, hms⟩ := received_isPrefix h y
  rw [← hms, List.getElem?_append_left (List.getElem?_eq_some_iff.mp hm).1]
  exact hm

theorem receive_connects_isPrefix (c : Channel) (q : Inbound) :
    c.connects <+: (c.receive g q).connects := by
  cases q with
  | connect m =>
    simp only [Channel.connects, Channel.receive, newDescriptors]
    split
    · exact List.prefix_rfl
    · rw [List.map_append]; exact List.prefix_append _ _
  | _ => exact List.prefix_rfl

theorem connects_isPrefix (h : Step g s a s') (y : ChannelId) :
    (s.channel y).connects <+: (s'.channel y).connects :=
  prefix_step Channel.connects (fun _ _ _ hc => hc) receive_connects_isPrefix h y

/-- Every packet on its way from an event loop answers a message that its channel received. -/
def Answered (g : Gateway) (s : State) : Prop :=
  ∀ x y, ∀ w ∈ (s.channel y).flow (.loop x), ∃ m,
    (s.channel x).received[w.request]? = some m ∧ Answers g m w.packet

theorem next_answers (ho : f.Of (.loop x)) (hh : Handles g c f)
    (h : next g s (.loop x) choice f = some (.write y p, f')) :
    ∃ m, c.received.getLast? = some m ∧ Answers g m p := by
  cases next_statement h with
  | reply => exact hh.2
  | refuse =>
    obtain ⟨msg, code, hm, -, rfl⟩ := hh
    exact ⟨_, hm, .inr rfl⟩
  | evictWrite => exact ⟨_, hh, .inl rfl⟩
  | connAck => exact ⟨_, hh, .inr rfl⟩
  | pubAck => exact ⟨_, hh.1, .inl rfl⟩
  | push =>
    obtain ⟨msg, hm, rfl, -⟩ := hh
    exact ⟨_, hm, .inr rfl⟩
  | messageWrite => exact ho.elim

theorem mem_flow_step (hr : Registry g s) (h : Step g s a s')
    (hw : w ∈ (s'.channel y).flow t) : w ∈ (s.channel y).flow t ∨ w ∈ s.adds g a t y :=
  List.mem_append.mp ((flow_step hr h y t).1.subset hw)

/-- What an event loop adds to a flow answers the message its channel received last. -/
theorem adds_answers (hr : (gateway g).Reachable s) (hw : w ∈ s.adds g a (.loop x) y) :
    w.request = (s.channel x).received.length - 1 ∧ ∃ m,
      (s.channel x).received.getLast? = some m ∧ (s.channel x).received[w.request]? = some m ∧
        Answers g m w.packet := by
  obtain ⟨choice, p, f, rfl, hn, rfl⟩ := mem_adds.mp hw
  obtain ⟨m, hm, ha⟩ := next_answers (reachable_owned hr _) (reachable_handles hr x) hn
  exact ⟨rfl, m, hm, by rw [State.request, ← List.getLast?_eq_getElem?]; exact hm, ha⟩

theorem Answered.step (hr : (gateway g).Reachable s) (hs : Answered g s) (h : Step g s a s') :
    Answered g s' := by
  intro x y w hw
  rcases mem_flow_step (reachable_registry hr) h hw with hw | hw
  · exact (hs x y w hw).imp fun _ hm => hm.imp_left (received_getElem? h)
  · obtain ⟨-, m, -, hm, ha⟩ := adds_answers hr hw
    exact ⟨m, received_getElem? h hm, ha⟩

theorem reachable_answered (h : (gateway g).Reachable s) : Answered g s :=
  h.invariant (fun x y w hw => by simp [State.init, Channel.init, Channel.flow] at hw)
    fun _ _ _ hr hs ht => hs.step hr (gateway_step.mp ht)

theorem mem_flow_of_sent (hw : w ∈ c.sent) : w ∈ c.flow w.source :=
  List.mem_append_left _ (by simpa using hw)

end ImProxy
