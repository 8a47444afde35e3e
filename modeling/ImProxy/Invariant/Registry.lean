import ImProxy.Invariant.Lifecycle

/-! # Descriptors in circulation

Every descriptor that the registry holds, that a handler has looked up or that an
iterator has read was built for a CONNECT that passed all checks, and the
registry keeps it under its own client id. A channel to which other threads have
posted tasks therefore has a descriptor.
-/

set_option autoImplicit false

namespace ImProxy

open Concurrent Transition

variable {g : Gateway} {s s' : State} {t u : Thread} {choice : Choice} {f f' : Frame} {i : Instr}
  {x y : ChannelId} {a : Action} {d : Descriptor} {P Q : Descriptor → Prop} {it it' : Cursor}

/-! ## Publication -/

theorem next_unpublished (h : next g s t choice f = some (i, f')) (hf : f'.stage ≤ 1) :
    f.stage ≤ 1 := by
  cases next_statement h
  case filterThrown => simp at hf
  all_goals simp_all [Frame.stage, ConnectLine.stage, pushReceived]

/-- The CONNECTs of a channel whose descriptor `addConnection` has put into the registry. -/
def State.published (s : State) (x : ChannelId) : List MqttConnectMessage :=
  (s.channel x).past (s.frame (.loop x)) 1

theorem published_run {y : ChannelId}
    (hn : next g s (.loop y) choice (s.frame (.loop y)) = some (i, f)) :
    ((s.exec (.loop y) i).channel y).past f 1 = s.published y ∨
      ∃ msg d previous, s.frame (.loop y) = .connect msg d (.put previous) ∧
        s.published y = (s.channel y).connects.dropLast ∧
        ((s.exec (.loop y) i).channel y).past f 1 = (s.channel y).connects := by
  simp only [State.published, Channel.past, exec_connects]
  by_cases h₁ : f.stage ≤ 1
  · exact .inl (by rw [if_pos h₁, if_pos (next_unpublished hn h₁)])
  by_cases h₂ : (s.frame (.loop y)).stage ≤ 1
  · refine .inr ?_
    rw [if_pos h₂, if_neg h₁]
    generalize hf : s.frame (.loop y) = f₀ at hn h₂
    cases next_statement hn with
    | putNew | putOver => exact ⟨_, _, _, rfl, rfl, rfl⟩
    | _ => simp_all [Frame.stage, ConnectLine.stage]
  · exact .inl (by rw [if_neg h₁, if_neg h₂])

/-- Only the put of a CONNECT publishes. -/
theorem published_cases (h : Step g s a s') (y : ChannelId) :
    s'.published y = s.published y ∨
      ∃ choice msg d previous, a = .run (.loop y) choice ∧
        s.frame (.loop y) = .connect msg d (.put previous) ∧
        s.published y = (s.channel y).connects.dropLast ∧
        s'.published y = (s.channel y).connects := by
  have start : ∀ x k f', s.frame (.loop x) = .idle →
      (k (s.channel x)).past f' 1 = (s.channel x).connects →
      (s.start x k f').published y = s.published y := by
    intro x k f' hf hk
    simp only [State.published, State.start, State.setFrame_channel, State.setFrame_frame,
      State.update_frame, State.update_channel, Thread.loop.injEq]
    split_ifs with hy
    · rw [hy, hk, hf, Channel.past_of_lt (by simp [Frame.stage])]
    · rfl
  have quiet : ∀ x (c : Channel), c.connects = (s.channel x).connects →
      c.past (channelInactive x (s.channel x)) 1 = (s.channel x).connects := by
    intro x c hc
    rw [Channel.past_of_lt (by simp [Lifecycle.stage_eq (channelInactive_loses ..).quiet.1]), hc]
  cases h with
  | @read x p hf _ =>
    exact .inl (start x (fun c => c.receive g p) _ hf (receive_past p (by decide)))
  | @inactive x hf _ => exact .inl (start x _ _ hf (quiet x _ rfl))
  | @readerIdle x hf _ _ =>
    exact .inl (start x (fun c => { c with lost := true }) _ hf (quiet x _ rfl))
  | @exceptionCaught x hf =>
    refine .inl ?_
    simp only [State.published, State.setFrame_channel, State.setFrame_frame]
    split_ifs with hy
    · cases hy; rw [hf]; rfl
    · rfl
  | peerClose _ =>
    refine .inl ?_
    simp only [State.published, State.update_channel, State.update_frame]
    split_ifs <;> rfl
  | call _ => exact .inl (by simp [State.published, State.setFrame_frame])
  | task _ _ =>
    refine .inl ?_
    simp only [State.published, State.update_channel, State.update_frame]
    split_ifs <;> simp [Channel.past, Channel.connects]
  | @run t choice i f hn =>
    by_cases ht : t = .loop y
    · subst ht
      rw [State.published, State.setFrame_channel, State.setFrame_frame_self]
      rcases published_run hn with he | ⟨msg, d, previous, hf, he, he'⟩
      · exact .inl he
      · exact .inr ⟨choice, msg, d, previous, rfl, hf, he, he'⟩
    · refine .inl ?_
      rw [State.published, State.setFrame_channel, State.setFrame_frame_of_ne _ _ (Ne.symm ht),
        State.exec_frame]
      simp only [State.published, Channel.past, exec_connects]

theorem published_isPrefix (h : Step g s a s') (y : ChannelId) :
    s.published y <+: s'.published y := by
  rcases published_cases h y with he | ⟨_, _, _, _, -, -, he, he'⟩
  · rw [he]
  · rw [he, he']
    exact List.dropLast_prefix _

/-- The descriptor was built for a CONNECT of its channel and put into the registry. -/
def Published (s : State) (d : Descriptor) : Prop :=
  ∃ msg, (s.published d.channel)[d.serial]? = some msg ∧ d = newDescriptor msg d.channel d.serial

namespace Published

theorem step (hd : Published s d) (h : Step g s a s') : Published s' d := by
  obtain ⟨msg, hm, he⟩ := hd
  obtain ⟨ms, hms⟩ := published_isPrefix h d.channel
  refine ⟨msg, ?_, he⟩
  rw [← hms, List.getElem?_append_left (List.getElem?_eq_some_iff.mp hm).1]
  exact hm

theorem serial_lt (hd : Published s d) : d.serial < (s.published d.channel).length := by
  obtain ⟨msg, hm, -⟩ := hd
  exact (List.getElem?_eq_some_iff.mp hm).1

theorem connects (hd : Published s d) : ∃ msg, (s.channel d.channel).connects[d.serial]? =
    some msg ∧ d = newDescriptor msg d.channel d.serial := by
  obtain ⟨msg, hm, he⟩ := hd
  refine ⟨msg, ?_, he⟩
  simp only [State.published, Channel.past] at hm
  split_ifs at hm
  · rw [List.getElem?_dropLast] at hm
    split_ifs at hm
    exact hm
  · exact hm

theorem connects_ne_nil (hd : Published s d) : (s.channel d.channel).connects ≠ [] := by
  obtain ⟨msg, hm, -⟩ := hd.connects
  rintro he
  simp [he] at hm

theorem eq {e : Descriptor} (hd : Published s d) (he : Published s e)
    (hc : d.channel = e.channel) (hl : (s.channel d.channel).connects.length ≤ 1) : d = e := by
  obtain ⟨m, hm, hd⟩ := hd.connects
  obtain ⟨n, hn, he⟩ := he.connects
  rw [← hc] at hn
  have h₁ : d.serial = 0 := by have := (List.getElem?_eq_some_iff.mp hm).1; omega
  have h₂ : e.serial = 0 := by have := (List.getElem?_eq_some_iff.mp hn).1; omega
  rw [h₁] at hm
  rw [h₂, hm] at hn
  rw [hd, he, Option.some.inj hn, hc, h₁, h₂]

end Published

/-! ## Descriptors held by a frame -/

/-- All entries an iterator has read are kept under their own client id. -/
def Holds (P : Descriptor → Prop) (it : Cursor) : Prop :=
  ∀ e ∈ it.fetched, e.2.clientID = e.1 ∧ P e.2

def ConnectLine.Refs (P : Descriptor → Prop) (d : Descriptor) : ConnectLine → Prop
  | .put previous => ∀ p, previous = some p → p.clientID = d.clientID ∧ p ≠ d ∧ P p
  | .evictWrite p => p.clientID = d.clientID ∧ p ≠ d ∧ P p
  | .evictAbort p => p.clientID = d.clientID ∧ p ≠ d ∧ P p
  | _ => True

def PushLine.Refs (P : Descriptor → Prop) : PushLine → Prop
  | .iterator => True
  | .loop it => Holds P it
  | .filter it d => Holds P it ∧ it.returned.getLast? = some (d.clientID, d)
  | .app it d => Holds P it ∧ it.returned.getLast? = some (d.clientID, d)
  | .imId it d => Holds P it ∧ it.returned.getLast? = some (d.clientID, d)
  | .write it d => Holds P it ∧ it.returned.getLast? = some (d.clientID, d)

/-- Every descriptor that a frame has looked up satisfies a property. -/
def Frame.Refs (P : Descriptor → Prop) : Frame → Prop
  | .connect _ d l => l.Refs P d
  | .pubAck _ _ _ (.write d) => P d
  | .push _ _ _ l => l.Refs P
  | .disconnect _ (.abortOther d) => P d
  | .disconnect _ (.abort d) => P d
  | .disconnect _ (.remove d) => P d
  | .notifyAll (.loop it) => Holds P it
  | .notifyAll (.abort it d) => Holds P it ∧ P d
  | .closeWithMessage (.write d) => P d
  | .closeWithMessage (.abort d) => P d
  | .closeConnection (.abort d) => P d
  | .closeConnection (.assign d) => P d
  | .closeConnection (.close d) => P d
  | _ => True

/-- A channel an operation writes to or closes is the own one or that of such a descriptor. -/
def Instr.Refs (t : Thread) (P : Descriptor → Prop) : Instr → Prop
  | .write y _ => t = .loop y ∨ ∃ d, P d ∧ d.channel = y
  | .close y => t = .loop y ∨ ∃ d, P d ∧ d.channel = y
  | _ => True

theorem Holds.create {m : Map String Descriptor} : Holds P (Iterator.create m) := by
  intro e he
  simp [Iterator.create, Iterator.fetched] at he

theorem Holds.fetch {m : Map String Descriptor} {c : String} (h : Holds P it)
    (hm : ∀ c d, m.get c = some d → d.clientID = c ∧ P d) (hf : it.fetch m c = some it') :
    Holds P it' := by
  obtain ⟨d, hd, -, -, hr, hp⟩ := Iterator.fetch_eq_some hf
  intro e he
  rw [Iterator.fetched, hr, hp, ← List.append_assoc, List.mem_append, List.mem_singleton] at he
  rcases he with he | rfl
  · exact h e he
  · exact hm c d hd

theorem Holds.next {c : String} (h : Holds P it) (hn : it.next = some ((c, d), it')) :
    Holds P it' ∧ it'.returned.getLast? = some (d.clientID, d) := by
  obtain ⟨hp, -, hr⟩ := Iterator.next_eq_some hn
  have hf : it'.fetched = it.fetched := by simp [Iterator.fetched, hr, hp]
  have hc : d.clientID = c := (h (c, d) (by simp [Iterator.fetched, hp])).1
  exact ⟨fun e he => h e (hf ▸ he), by simp [hr, hc]⟩

theorem Holds.last (h : Holds P it) (hl : it.returned.getLast? = some (d.clientID, d)) : P d :=
  (h _ (List.mem_append_left _ (List.mem_of_getLast? hl))).2

theorem Holds.mono (h : Holds P it) (hPQ : ∀ d, P d → Q d) : Holds Q it :=
  fun e he => ⟨(h e he).1, hPQ _ (h e he).2⟩

theorem Frame.Refs.mono (h : f.Refs P) (hPQ : ∀ d, P d → Q d) : f.Refs Q := by
  cases f with
  | connect msg d l =>
    cases l with
    | put previous => exact fun p hp => ⟨(h p hp).1, (h p hp).2.1, hPQ _ (h p hp).2.2⟩
    | evictWrite p => exact ⟨h.1, h.2.1, hPQ _ h.2.2⟩
    | evictAbort p => exact ⟨h.1, h.2.1, hPQ _ h.2.2⟩
    | _ => trivial
  | pubAck x msg c l => cases l <;> first | trivial | exact hPQ _ h
  | push content c b l =>
    cases l with
    | iterator => trivial
    | loop it => exact Holds.mono h hPQ
    | filter it d => exact ⟨Holds.mono h.1 hPQ, h.2⟩
    | app it d => exact ⟨Holds.mono h.1 hPQ, h.2⟩
    | imId it d => exact ⟨Holds.mono h.1 hPQ, h.2⟩
    | write it d => exact ⟨Holds.mono h.1 hPQ, h.2⟩
  | disconnect x l => cases l <;> first | trivial | exact hPQ _ h
  | notifyAll l =>
    cases l with
    | iterator => trivial
    | loop it => exact Holds.mono h hPQ
    | abort it d => exact ⟨Holds.mono h.1 hPQ, hPQ _ h.2⟩
  | closeWithMessage l => cases l <;> first | trivial | exact hPQ _ h
  | closeConnection l => cases l <;> first | trivial | exact hPQ _ h
  | _ => trivial

/-- The step rule of references: a thread holds on only to what the registry holds. -/
theorem next_refs (hm : ∀ c d, s.connectionDescriptors.get c = some d → d.clientID = c ∧ P d)
    (hg : ∀ msg d, f = .connect msg d .get →
      ∀ p, s.connectionDescriptors.get d.clientID = some p → p ≠ d)
    (ho : f.Of t) (hf : f.Refs P) (h : next g s t choice f = some (i, f')) :
    f'.Refs P ∧ i.Refs t P := by
  cases next_statement h
  case get => exact ⟨fun p hp => ⟨(hm _ p hp).1, hg _ _ rfl p hp, (hm _ p hp).2⟩, trivial⟩
  case putOver p => exact ⟨hf p rfl, trivial⟩
  case evictWrite p => exact ⟨hf, .inr ⟨p, hf.2.2, rfl⟩⟩
  case evictAbort p => exact ⟨trivial, .inr ⟨p, hf.2.2, rfl⟩⟩
  case pushIterator => exact ⟨Holds.create, trivial⟩
  case pushFetch hit => exact ⟨Holds.fetch hf hm hit, trivial⟩
  case pushNext hit => exact ⟨Holds.next hf hit, trivial⟩
  case push d => exact ⟨hf.1, .inr ⟨d, hf.1.last hf.2, rfl⟩⟩
  case notifyIterator => exact ⟨Holds.create, trivial⟩
  case notifyFetch hit => exact ⟨Holds.fetch hf hm hit, trivial⟩
  case notifyNext hit =>
    obtain ⟨hit', hl⟩ := Holds.next hf hit
    exact ⟨⟨hit', hit'.last hl⟩, trivial⟩
  case filterThrown => cases t <;> exact ⟨trivial, trivial⟩
  case reply | refuse | close | connAck | rollbackClose =>
    cases t <;> simp_all [Frame.Of, Frame.Refs, ConnectLine.Refs, Instr.Refs]
  case pubAckFound hc | messageFound hc | closeNow hc | closeGracefully hc =>
    exact ⟨(hm _ _ hc).2, trivial⟩
  case disconnectOther hc _ | disconnectOwn hc _ => exact ⟨(hm _ _ hc).2, trivial⟩
  case pubAck | abortOther | messageAbort | closeAbort | closeClose =>
    exact ⟨trivial, .inr ⟨_, hf, rfl⟩⟩
  case abort | messageWrite => exact ⟨hf, .inr ⟨_, hf, rfl⟩⟩
  case notifyAbort => exact ⟨hf.1, .inr ⟨_, hf.2, rfl⟩⟩
  all_goals
    simp_all [Frame.Refs, ConnectLine.Refs, PushLine.Refs, Instr.Refs, pushReceived]

/-! ## The invariant -/

/-- What other threads post to a channel: an eviction, an acknowledgement or a broadcast. -/
def Foreign (g : Gateway) (p : MqttMessage) : Prop :=
  p = beExited g ∨ p = pubAck 1 ∨ ∃ content, p = pushMessage g content

/-- Where the descriptors in circulation come from. -/
structure Registry (g : Gateway) (s : State) : Prop where

  entries : ∀ c d, s.connectionDescriptors.get c = some d → d.clientID = c ∧ Published s d

  refs : ∀ t, (s.frame t).Refs (Published s)

  posted : ∀ y t, (s.channel y).tasks t ≠ [] → ∃ d, Published s d ∧ d.channel = y

  own : ∀ y, (s.channel y).tasks (.loop y) = []

  packets : ∀ y t w, .write w ∈ (s.channel y).tasks t → w.source = t ∧ Foreign g w.packet

theorem Foreign.isConnAck {p : MqttMessage} (h : Foreign g p) : p.isConnAck = false := by
  rcases h with rfl | rfl | ⟨content, rfl⟩ <;> rfl

theorem next_foreign {p : MqttMessage} (ho : f.Of t) (hy : t ≠ .loop y)
    (h : next g s t choice f = some (.write y p, f')) : Foreign g p := by
  cases next_statement h with
  | evictWrite => exact .inl rfl
  | messageWrite => exact .inl rfl
  | pubAck => exact .inr (.inl rfl)
  | push => exact .inr (.inr ⟨_, rfl⟩)
  | reply | refuse | connAck => cases t <;> simp_all [Frame.Of]

theorem Registry.init : Registry g (.init g) :=
  ⟨by simp [State.init], fun _ => trivial, by simp [State.init, Channel.init],
    by simp [State.init, Channel.init], by simp [State.init, Channel.init]⟩

theorem Registry.frame (hs : Registry g s) (h : Step g s a s')
    (hc : s'.connectionDescriptors = s.connectionDescriptors)
    (hf : ∀ t, (s'.frame t).Refs (Published s'))
    (ht : ∀ y t, (s'.channel y).tasks t <:+ (s.channel y).tasks t) : Registry g s' where
  entries c d hd := by
    rw [hc] at hd
    exact ⟨(hs.entries c d hd).1, (hs.entries c d hd).2.step h⟩
  refs := hf
  posted y t hy := by
    obtain ⟨d, hd, rfl⟩ := hs.posted y t fun he => hy (List.suffix_nil.mp (he ▸ ht y t))
    exact ⟨d, hd.step h, rfl⟩
  own y := List.suffix_nil.mp (hs.own y ▸ ht y _)
  packets y t w hw := hs.packets y t w ((ht y t).subset hw)

theorem get_exec {c : String} (h : (s.exec t i).connectionDescriptors.get c = some d) :
    s.connectionDescriptors.get c = some d ∨ i = .put d ∧ d.clientID = c := by
  rw [State.exec_connectionDescriptors] at h
  cases i with
  | put e =>
    rw [Map.get_put] at h
    split_ifs at h with hc
    · cases h; exact .inr ⟨rfl, hc.symm⟩
    · exact .inl h
  | remove e => exact .inl (Map.get_of_get_removeIf _ h)
  | _ => exact .inl h

/-- Only a channel's own event loop adds an entry of the channel. -/
theorem Step.get_old (ho : Owned s) (h : Step g s a s') (ha : ¬∃ choice, a = .run (.loop x) choice)
    {c : String} (hd : s'.connectionDescriptors.get c = some d) (hx : d.channel = x) :
    s.connectionDescriptors.get c = some d := by
  cases h with
  | @run t choice i f hn =>
    refine (get_exec hd).resolve_right ?_
    rintro ⟨rfl, -⟩
    have ht := (next_of (ho t) hn).1
    rw [Instr.put_of, hx] at ht
    exact ha ⟨choice, ht ▸ rfl⟩
  | _ => exact hd

theorem tasks_exec {k : Task} (h : k ∈ ((s.exec t i).channel y).tasks u) :
    k ∈ (s.channel y).tasks u ∨ u = t ∧ t ≠ .loop y ∧
      ((∃ p, i = .write y p ∧ k = .write ⟨p, t, s.request t⟩) ∨ i = .close y ∧ k = .close) := by
  rw [State.exec_tasks] at h
  cases i with
  | write z p =>
    simp only at h
    split_ifs at h with hz
    · obtain ⟨rfl, rfl, ht⟩ := hz
      rcases List.mem_append.mp h with h | h
      · exact .inl h
      · exact .inr ⟨rfl, ht, .inl ⟨p, rfl, List.mem_singleton.mp h⟩⟩
    · exact .inl h
  | close z =>
    simp only at h
    split_ifs at h with hz
    · obtain ⟨rfl, rfl, ht⟩ := hz
      rcases List.mem_append.mp h with h | h
      · exact .inl h
      · exact .inr ⟨rfl, ht, .inr ⟨rfl, List.mem_singleton.mp h⟩⟩
    · exact .inl h
  | _ => exact .inl h

theorem not_published (hl : Lifecycle g x (s.channel x) (s.frame (.loop x)))
    {msg : MqttConnectMessage} {l : ConnectLine} (hf : s.frame (.loop x) = .connect msg d l)
    (h₁ : l.stage ≤ 1) : ¬Published s d := by
  intro hd
  obtain ⟨-, hlen, -, -, he⟩ := hl.connecting _ _ _ hf
  have hx : d.channel = x := congrArg Descriptor.channel he
  have := hd.serial_lt
  rw [hx, State.published, hf, Channel.past_of_le h₁, List.length_dropLast, hlen] at this
  omega

theorem published_of_stage (hl : Lifecycle g x (s.channel x) (s.frame (.loop x)))
    {msg : MqttConnectMessage} {l : ConnectLine} (hf : s.frame (.loop x) = .connect msg d l)
    (h₁ : 1 < l.stage) : Published s d := by
  obtain ⟨hlast, hlen, -, -, he⟩ := hl.connecting _ _ _ hf
  have hx : d.channel = x := congrArg Descriptor.channel he
  refine ⟨msg, ?_, hx ▸ he⟩
  rw [List.getLast?_eq_getElem?, hlen] at hlast
  rw [hx, State.published, hf, Channel.past_of_lt h₁]
  simpa using hlast

theorem published_put
    (hl : Lifecycle g d.channel (s'.channel d.channel) (s'.frame (.loop d.channel)))
    (hn : next g s t choice f = some (.put d, f')) (hf : s'.frame (.loop d.channel) = f') :
    Published s' d := by
  cases next_statement hn with
  | putNew => exact published_of_stage hl hf (by decide)
  | putOver => exact published_of_stage hl hf (by simp [ConnectLine.stage])

theorem Registry.run (hs : Registry g s) (ho : Owned s)
    (hl : ∀ x, Lifecycle g x (s.channel x) (s.frame (.loop x)))
    (hn : next g s t choice (s.frame t) = some (i, f))
    (hl' : ∀ x, Lifecycle g x (((s.exec t i).setFrame t f).channel x)
      (((s.exec t i).setFrame t f).frame (.loop x))) :
    Registry g ((s.exec t i).setFrame t f) := by
  have keep : ∀ d, Published s d → Published ((s.exec t i).setFrame t f) d :=
    fun d hd => hd.step (a := .run t choice) (.run hn)
  have fresh : ∀ msg d, s.frame t = .connect msg d .get →
      ∀ p, s.connectionDescriptors.get d.clientID = some p → p ≠ d := by
    rintro msg d hf p hp rfl
    have ht := (hf ▸ ho t : (Frame.connect msg p .get).Of t).connect.1
    exact not_published (hl _) (ht ▸ hf) (by decide) (hs.entries _ _ hp).2
  obtain ⟨hf, hi⟩ := next_refs hs.entries fresh (ho t) (hs.refs t) hn
  refine ⟨fun c d hd => ?_, fun u => ?_, fun y u hy => ?_, fun y => ?_, fun y u w hw => ?_⟩
  · rcases get_exec hd with hd | ⟨rfl, hc⟩
    · exact ⟨(hs.entries c d hd).1, keep d (hs.entries c d hd).2⟩
    · have ht : t = .loop d.channel := by simpa using (next_of (ho t) hn).1
      exact ⟨hc, published_put (hl' _) hn (by rw [← ht, State.setFrame_frame_self])⟩
  · rw [State.setFrame_frame]
    split_ifs
    · exact hf.mono keep
    · rw [State.exec_frame]; exact (hs.refs u).mono keep
  · obtain ⟨k, hk⟩ := List.exists_mem_of_ne_nil _ hy
    rcases tasks_exec hk with hk | ⟨-, ht, ⟨p, rfl, -⟩ | ⟨rfl, -⟩⟩
    · obtain ⟨d, hd, hc⟩ := hs.posted y u (List.ne_nil_of_mem hk)
      exact ⟨d, keep d hd, hc⟩
    · obtain ⟨d, hd, hc⟩ := hi.resolve_left ht
      exact ⟨d, keep d hd, hc⟩
    · obtain ⟨d, hd, hc⟩ := hi.resolve_left ht
      exact ⟨d, keep d hd, hc⟩
  · refine List.eq_nil_iff_forall_not_mem.mpr fun k hk => ?_
    rcases tasks_exec hk with hk | ⟨rfl, ht, -⟩
    · simp [hs.own y] at hk
    · exact ht rfl
  · rcases tasks_exec hw with hw | ⟨rfl, ht, ⟨p, rfl, hk⟩ | ⟨-, hk⟩⟩
    · exact hs.packets y u w hw
    · cases hk
      exact ⟨rfl, next_foreign (ho u) ht hn⟩
    · cases hk

theorem Frame.Begins.refs (h : f.Begins x) : f.Refs P := by
  cases h <;> trivial

theorem Frame.Loses.refs (h : f.Loses x) : f.Refs P := by
  cases h <;> trivial

theorem tasks_isSuffix (h : Step g s a s') (ha : ∀ t choice, a ≠ .run t choice) (y : ChannelId)
    (t : Thread) : (s'.channel y).tasks t <:+ (s.channel y).tasks t := by
  have hc := h.onChannel y
  generalize s'.channel y = c at hc
  cases hc with
  | still _ | read _ | event _ _ => exact List.suffix_rfl
  | @task u k ks _ hk =>
    simp only [Function.update_apply]
    split_ifs with ht
    · rw [ht, hk]
      exact List.suffix_cons _ _
    · exact List.suffix_rfl
  | run _ => exact absurd rfl (ha _ _)

theorem Registry.step (hs : Registry g s) (ho : Owned s)
    (hl : ∀ x, Lifecycle g x (s.channel x) (s.frame (.loop x)))
    (hl' : ∀ x, Lifecycle g x (s'.channel x) (s'.frame (.loop x))) (h : Step g s a s') :
    Registry g s' := by
  have refs : ∀ {t}, (s.frame t).Refs (Published s') := fun {t} =>
    (hs.refs t).mono fun _ hd => hd.step h
  have start : ∀ {s₀ : State} {t f'}, s₀.frame = s.frame → f'.Refs (Published s') →
      ∀ u, ((s₀.setFrame t f').frame u).Refs (Published s') := by
    intro s₀ t f' h₀ hf' u
    rw [State.setFrame_frame]
    split_ifs
    · exact hf'
    · rw [h₀]; exact refs
  have queues := tasks_isSuffix h
  cases h with
  | read hf hl =>
    exact hs.frame (.read hf hl) rfl (start rfl (channelRead_begins ..).refs) (queues nofun)
  | inactive hf hd =>
    exact hs.frame (.inactive hf hd) rfl (start rfl (channelInactive_loses ..).refs) (queues nofun)
  | readerIdle hf hi hr =>
    exact hs.frame (.readerIdle hf hi hr) rfl (start rfl (channelInactive_loses ..).refs)
      (queues nofun)
  | exceptionCaught hf =>
    exact hs.frame (.exceptionCaught hf) rfl (start rfl trivial) (queues nofun)
  | peerClose hf => exact hs.frame (.peerClose hf) rfl (fun _ => refs) (queues nofun)
  | @call n c hf =>
    exact hs.frame (.call hf) rfl (start rfl (by cases c <;> trivial)) (queues nofun)
  | task hf hk => exact hs.frame (.task hf hk) rfl (fun _ => refs) (queues nofun)
  | run hn => exact hs.run ho hl hn hl'

theorem reachable_registry (h : (gateway g).Reachable s) : Registry g s :=
  h.invariant Registry.init fun _ _ _ hr hs ht =>
    hs.step (reachable_owned hr) (reachable_lifecycle hr) (reachable_lifecycle (hr.step ht))
      (gateway_step.mp ht)

end ImProxy
