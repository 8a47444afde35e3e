import ImProxy.Invariant.Entry
import ImProxy.Property.Delivery

/-! # Calls that go over the registry

A push of the server and the notification of all connections go over the registry
without a filter, so no step of a push throws. Every client that is registered from the start of
the loop to its end is visited: a push puts its payload on the way to it, behind what
the same thread has pushed before, and a notification posts the close of its channel.
-/

set_option autoImplicit false

namespace ImProxy

open Concurrent Transition

variable {g : Gateway} {s s' t : State} {choice : Choice} {f : Frame} {i : Instr} {n : ℕ}
  {a : Action} {as : List Action} {c content : String} {d e : Descriptor} {l l' : PushLine}
  {base : List Write} {it : Cursor}

/-- The steps while a server thread is inside a call. -/
def Calling (n : ℕ) : Condition State Action := fun s _ => s.frame (.server n) ≠ .idle

/-- The steps before which a client is registered. -/
def Registered (c : String) (d : Descriptor) : Condition State Action := fun s _ =>
  s.connectionDescriptors.get c = some d

instance (n : ℕ) (s : State) : DecidablePred (Calling n s) := fun _ =>
  decidable_of_iff ((s.frame (.server n)).isIdle = false) (by
    rw [Calling, ne_eq, ← Frame.isIdle_iff, Bool.not_eq_true])

instance (s : State) : DecidablePred (Registered c d s) := fun _ =>
  inferInstanceAs (Decidable (_ = _))

instance (s : State) : DecidablePred (Stays c d s) := fun _ =>
  inferInstanceAs (Decidable (_ ∧ _))

/-- A thread that takes a step at the filter of a loop does not leave the loop by an exception. -/
def NotThrowing (g : Gateway) (t : Thread) : Condition State Action := fun s a =>
  ∀ choice content clientId filtered it d, a = .run t choice →
    s.frame t = .push content clientId filtered (.filter it d) →
    next g s t choice (s.frame t) ≠ some (.skip, thrown t)

theorem calling_frame (hf : s.frame (.server n) ≠ .idle) (h : Step g s a s')
    (ha : ¬∃ choice, a = .run (.server n) choice) : s'.frame (.server n) = s.frame (.server n) :=
  (busy_frame hf h).resolve_left ha

theorem adds_foreign {u : Thread} {y : ChannelId} (ha : ¬∃ choice, a = .run u choice) :
    s.adds g a u y = [] := by
  refine List.eq_nil_iff_forall_not_mem.mpr fun w hw => ?_
  obtain ⟨choice, q, f, rfl, -⟩ := mem_adds.mp hw
  exact ha ⟨choice, rfl⟩

/-! ## The push -/

/-- The payload of a push as a thread of the server writes it. -/
def pushed (g : Gateway) (n : ℕ) (content : String) : Write :=
  ⟨pushMessage g content, .server n, 0⟩

/-- How many entries of a channel a broadcast is done with. -/
def visited (d : Descriptor) (es : List (String × Descriptor)) : ℕ :=
  es.countP fun e => e.2.channel = d.channel

/-- A push while a client stays: it has put one copy on the way for each entry of the channel that
it is done with. -/
structure Pushed (g : Gateway) (n : ℕ) (content c : String) (d : Descriptor) (base : List Write)
    (s : State) (l : PushLine) : Prop where

  created : ∀ it, l.cursor = some it → it.created.get c = some d

  flow : (s.channel d.channel).flow (.server n) =
    base ++ List.replicate (visited d l.done) (pushed g n content)

theorem visited_returned (he : it.returned.getLast? = some (e.clientID, e)) :
    visited d it.returned =
      visited d it.returned.dropLast + if e.channel = d.channel then 1 else 0 := by
  conv_lhs => rw [← List.dropLast_append_getLast? _ he]
  simp [visited, List.countP_append, List.countP_cons]

section Run

variable (hr : (gateway g).Reachable s) (ho : (s.channel d.channel).isOpen = true)
  (hw : Pushed g n content c d base s l)
  (hn : next g s (.server n) choice (s.frame (.server n)) = some (i, f))

include hr ho hw hn

theorem Pushed.still (hi : ∀ q, i ≠ .write d.channel q)
    (hcr : ∀ it, l'.cursor = some it → it.created.get c = some d)
    (hdo : visited d l'.done = visited d l.done) :
    Pushed g n content c d base ((s.exec (.server n) i).setFrame (.server n) f) l' := by
  refine ⟨hcr, ?_⟩
  rw [(flow_step (reachable_registry hr) (.run hn) _ _).2 ho, adds_eq_nil hn hi, List.append_nil,
    hw.flow, hdo]

theorem Pushed.moved (hi : ∀ q, i ≠ .write d.channel q) (hcur : l'.cursor = l.cursor)
    (hdo : l'.done = l.done) :
    Pushed g n content c d base ((s.exec (.server n) i).setFrame (.server n) f) l' :=
  hw.still hr ho hn hi (fun it h => hw.created it (hcur ▸ h)) (by rw [hdo])

theorem Pushed.skipped (hi : ∀ q, i ≠ .write d.channel q)
    (hlast : it.returned.getLast? = some (e.clientID, e)) (hcur : l.cursor = some it)
    (hdo : l.done = it.returned.dropLast) (hne : e.channel ≠ d.channel) :
    Pushed g n content c d base ((s.exec (.server n) i).setFrame (.server n) f) (.loop it) := by
  refine hw.still hr ho hn hi ?_ ?_
  · rintro _ ⟨⟩
    exact hw.created it hcur
  · rw [hdo, PushLine.done, visited_returned hlast, if_neg hne, Nat.add_zero]

theorem Pushed.push (hi : i = .write e.channel (pushMessage g content))
    (hlast : it.returned.getLast? = some (e.clientID, e)) (hl : l = .write it e)
    (he : e.channel = d.channel) :
    Pushed g n content c d base ((s.exec (.server n) i).setFrame (.server n) f) (.loop it) := by
  subst hl hi
  have hadd : s.adds g (.run (.server n) choice) (.server n) d.channel = [pushed g n content] := by
    simp [State.adds, State.writes, hn, he, pushed, State.request]
  refine ⟨fun it h => hw.created it h, ?_⟩
  rw [(flow_step (reachable_registry hr) (.run hn) _ _).2 ho, hadd, hw.flow, PushLine.done,
    PushLine.done, visited_returned hlast, if_pos he, List.replicate_add, List.append_assoc]
  rfl

end Run

theorem Pushed.run (hr : (gateway g).Reachable s)
    (hf : s.frame (.server n) = .push content none false l)
    (ho : (s.channel d.channel).isOpen = true) (hready : Ready (s.channel d.channel))
    (hst : s.connectionDescriptors.get c = some d) (hw : Pushed g n content c d base s l)
    (hn : next g s (.server n) choice (s.frame (.server n)) = some (i, f)) :
    (∃ l', f = .push content none false l' ∧
      Pushed g n content c d base ((s.exec (.server n) i).setFrame (.server n) f) l') ∨
    f = .idle ∧ ∃ it : Cursor, (c, d) ∈ it.returned ∧ Holds (Published s) it ∧
      Pushed g n content c d base ((s.exec (.server n) i).setFrame (.server n) f) (.loop it) := by
  have hrefs := (reachable_registry hr).refs (.server n)
  have hn₀ := hn
  rw [hf] at hn hrefs
  -- an entry without an app or a user id is not one of the client's channel
  have other : ∀ {e : Descriptor} {b : Bool}, b = true → b = false → e.channel ≠ d.channel :=
    fun h h' => by simp [h] at h'
  cases next_statement hn with
  | pushIterator =>
    refine .inl ⟨_, rfl, hw.still hr ho hn₀ (by simp) ?_ rfl⟩
    rintro _ ⟨⟩
    exact hst
  | pushFetch hit =>
    obtain ⟨v, -, -, hcr, hret, -⟩ := Iterator.fetch_eq_some hit
    refine .inl ⟨_, rfl, hw.still hr ho hn₀ (by simp) ?_ (by simp only [PushLine.done, hret])⟩
    rintro _ ⟨⟩
    rw [hcr]
    exact hw.created _ rfl
  | pushNext hit =>
    obtain ⟨-, hcr, hret⟩ := Iterator.next_eq_some hit
    refine .inl ⟨_, rfl, hw.still hr ho hn₀ (by simp) ?_
      (by simp only [PushLine.done, hret, List.dropLast_concat])⟩
    rintro _ ⟨⟩
    rw [hcr]
    exact hw.created _ rfl
  | pushEnd he =>
    exact .inr ⟨rfl, _, he.returned (hw.created _ rfl) hst, hrefs,
      hw.moved hr ho hn₀ (by simp) rfl rfl⟩
  | filterThrown hon | filterOwn hon | filterOther hon => cases hon
  | filterOff _ => exact .inl ⟨_, rfl, hw.moved hr ho hn₀ (by simp) rfl rfl⟩
  | pushApp _ => exact .inl ⟨_, rfl, hw.moved hr ho hn₀ (by simp) rfl rfl⟩
  | pushImId _ => exact .inl ⟨_, rfl, hw.moved hr ho hn₀ (by simp) rfl rfl⟩
  | pushNoApp hno =>
    refine .inl ⟨_, rfl, hw.skipped hr ho hn₀ (by simp) hrefs.2 rfl rfl fun he => ?_⟩
    rw [he, hready.1] at hno
    cases hno
  | pushNoImId hno =>
    refine .inl ⟨_, rfl, hw.skipped hr ho hn₀ (by simp) hrefs.2 rfl rfl fun he => ?_⟩
    rw [he, hready.2] at hno
    cases hno
  | @push _ _ _ it e =>
    by_cases he : e.channel = d.channel
    · exact .inl ⟨_, rfl, hw.push hr ho hn₀ rfl hrefs.2 rfl he⟩
    · refine .inl ⟨_, rfl, hw.skipped hr ho hn₀ (fun q hq => ?_) hrefs.2 rfl rfl he⟩
      injection hq with hy
      exact he hy

/-- Without a filter a push goes on in its loop or ends. -/
theorem push_step (hf : s.frame (.server n) = .push content none false l) (hs : Step g s a s') :
    s'.frame (.server n) = .idle ∨
      ∃ l', s'.frame (.server n) = .push content none false l' := by
  by_cases ha : ∃ choice, a = .run (.server n) choice
  · obtain ⟨choice, rfl⟩ := ha
    cases hs with
    | run hn =>
      rw [hf] at hn
      rw [State.setFrame_frame_self]
      cases next_statement hn with
      | pushEnd => exact .inl rfl
      | filterThrown hon => cases hon
      | _ => exact .inr ⟨_, rfl⟩
  · refine .inr ⟨l, (calling_frame ?_ hs ha).trans hf⟩
    rw [hf]
    exact nofun

theorem push_notThrowing (hf : s.frame (.server n) = .push content none false l) (a : Action) :
    NotThrowing g (.server n) s a := by
  rintro choice _ _ _ it d rfl hd hn
  cases hf.symm.trans hd
  rw [hf] at hn
  cases hn

/-- A push never throws. -/
theorem push_returns (hf : s.frame (.server n) = .push content none false l)
    (h : (gateway g).Path (Calling n) s as t) :
    (gateway g).Path (NotThrowing g (.server n)) s as t := by
  have : (gateway g).Path (NotThrowing g (.server n)) s as t ∧
      (t.frame (.server n) = .idle ∨ ∃ l, t.frame (.server n) = .push content none false l) := by
    induction h with
    | nil => exact ⟨.nil, .inr ⟨l, hf⟩⟩
    | snoc _ hcall hs ih =>
      obtain ⟨hp, hu⟩ := ih
      obtain ⟨l', hl'⟩ := hu.resolve_left hcall
      exact ⟨.snoc hp (push_notThrowing hl' _) hs, push_step hl' (gateway_step.mp hs)⟩
  exact this.1

/-- What a push of thread `n` has done for a client on a run from one state to another. -/
structure PushReaches (g : Gateway) (n : ℕ) (content : String) (d : Descriptor)
    (as : List Action) (s t : State) : Prop where

  /-- No step of the push throws. -/
  returns : (gateway g).Path (NotThrowing g (.server n)) s as t

  /-- The payload is behind everything the thread has pushed before. -/
  reaches : ∃ k, (t.channel d.channel).flow (.server n) =
    (s.channel d.channel).flow (.server n) ++ List.replicate (k + 1) (pushed g n content)

  once : (t.channel d.channel).connects.length ≤ 1 → (t.channel d.channel).flow (.server n) =
    (s.channel d.channel).flow (.server n) ++ [pushed g n content]

theorem visited_le_one (h : Holds (Published s) it)
    (hd : Published s d) (hl : (s.channel d.channel).connects.length ≤ 1) :
    visited d it.returned ≤ 1 := by
  have hn := (List.nodup_append.mp it.nodup).1
  have he : ∀ e ∈ it.returned.filter (·.2.channel = d.channel), e = (d.clientID, d) := by
    intro e he
    obtain ⟨hm, hx⟩ := List.mem_filter.mp he
    obtain ⟨hid, hp⟩ := h e (List.mem_append_left _ hm)
    have hx : e.2.channel = d.channel := by simpa using hx
    obtain rfl := hd.eq hp hx.symm hl
    exact Prod.ext hid.symm rfl
  rw [visited, List.countP_eq_length_filter]
  have hr := hn.filter fun e => e.2.channel = d.channel
  rw [List.eq_replicate_of_mem he] at hr
  exact List.nodup_replicate.mp hr

def Pushing (n : ℕ) (c : String) (d : Descriptor) : Condition State Action := fun s a =>
  Calling n s a ∧ Stays c d s a

instance (n : ℕ) (s : State) : DecidablePred (Pushing n c d s) := fun _ =>
  inferInstanceAs (Decidable (_ ∧ _))

def pushBegins : List Action := join 0 "a" ++ join 1 "b" ++ [.call 0 (.pushMsg2All "hi")]

def pushToBoth : List Action :=
  .run (.server 0) .proceed ::
    ([.run (.server 0) (.fetch "b"), .run (.server 0) (.fetch "a")] ++
      List.replicate 10 (.run (.server 0) .proceed) ++ [.run (.server 0) .finish])

def NotifyLine.cursor : NotifyLine → Option Cursor
  | .iterator => none
  | .loop it => some it
  | .abort it _ => some it

def NotifyLine.done : NotifyLine → List (String × Descriptor)
  | .iterator => []
  | .loop it => it.returned
  | .abort it _ => it.returned.dropLast

/-- The channel is closed, or a thread of the server has posted its close. -/
def CloseDue (n : ℕ) (d : Descriptor) (s : State) : Prop :=
  Task.close ∈ (s.channel d.channel).tasks (.server n) ∨ (s.channel d.channel).isOpen = false

theorem CloseDue.step (h : CloseDue n d s) (hs : Step g s a s') : CloseDue n d s' := by
  rcases h with hk | ho
  · exact close_posted_path (.single trivial (gateway_step.mpr hs)) hk
  · right
    by_contra hv
    have := isOpen_of_step hs (by simpa using hv)
    rw [ho] at this
    cases this

/-- A notification while a client is registered: the close of its channel is due once the
notification is done with its entry. -/
structure Notified (n : ℕ) (c : String) (d : Descriptor) (s : State) (l : NotifyLine) : Prop where

  created : ∀ it, l.cursor = some it → it.created.get c = some d

  last : ∀ it e, l = .abort it e → ∃ k, it.returned.getLast? = some (k, e)

  due : (c, d) ∈ l.done → CloseDue n d s

theorem Notified.run {l : NotifyLine} (hf : s.frame (.server n) = .notifyAll l)
    (hst : s.connectionDescriptors.get c = some d) (hw : Notified n c d s l)
    (hn : next g s (.server n) choice (s.frame (.server n)) = some (i, f)) :
    (∃ l', f = .notifyAll l' ∧
      Notified n c d ((s.exec (.server n) i).setFrame (.server n) f) l') ∨
    f = .idle ∧ CloseDue n d ((s.exec (.server n) i).setFrame (.server n) f) := by
  have keeps : CloseDue n d s → CloseDue n d ((s.exec (.server n) i).setFrame (.server n) f) :=
    fun h => h.step (.run hn)
  have hn₀ := hn
  rw [hf] at hn
  cases next_statement hn with
  | notifyIterator =>
    refine .inl ⟨_, rfl, ?_, by simp, by simp [NotifyLine.done, Iterator.create]⟩
    rintro _ ⟨⟩
    exact hst
  | notifyFetch hit =>
    obtain ⟨v, -, -, hcr, hret, -⟩ := Iterator.fetch_eq_some hit
    refine .inl ⟨_, rfl, ?_, by simp, fun h => keeps (hw.due ?_)⟩
    · rintro _ ⟨⟩
      rw [hcr]
      exact hw.created _ rfl
    · simpa only [NotifyLine.done, hret] using h
  | notifyNext hit =>
    obtain ⟨-, hcr, hret⟩ := Iterator.next_eq_some hit
    refine .inl ⟨_, rfl, ?_, ?_, fun h => keeps (hw.due ?_)⟩
    · rintro _ ⟨⟩
      rw [hcr]
      exact hw.created _ rfl
    · rintro _ _ ⟨⟩
      exact ⟨_, by rw [hret, List.getLast?_concat]⟩
    · simpa only [NotifyLine.done, hret, List.dropLast_concat] using h
  | notifyEnd he => exact .inr ⟨rfl, keeps (hw.due (he.returned (hw.created _ rfl) hst))⟩
  | @notifyAbort it e =>
    refine .inl ⟨_, rfl, fun it h => hw.created it h, by simp, fun h => ?_⟩
    obtain ⟨k, hk⟩ := hw.last _ _ rfl
    rw [NotifyLine.done, ← List.dropLast_append_getLast? _ hk, List.mem_append,
      List.mem_singleton] at h
    rcases h with h | h
    · exact keeps (hw.due h)
    · cases h
      exact .inl (by simp [State.exec_tasks])

def Notifying (n : ℕ) (c : String) (d : Descriptor) : Condition State Action := fun s a =>
  Calling n s a ∧ Registered c d s a

instance (n : ℕ) (s : State) : DecidablePred (Notifying n c d s) := fun _ =>
  inferInstanceAs (Decidable (_ ∧ _))

/-- The notification of all connections closes the channel of every client that is registered from
the start of its loop to its end: its close is posted and stays so until it closes the channel. -/
theorem notify_closes (hf : s.frame (.server n) = .notifyAll .iterator)
    (h : (gateway g).Path (Notifying n c d) s as t) (ht : t.frame (.server n) = .idle) :
    ∀ bs u, (gateway g).Path System.always t bs u → CloseDue n d u := by
  have : (∃ l, t.frame (.server n) = .notifyAll l ∧ Notified n c d t l) ∨
      t.frame (.server n) = .idle ∧ CloseDue n d t := by
    refine h.invariant (P := fun t => (∃ l, t.frame (.server n) = .notifyAll l ∧
      Notified n c d t l) ∨ t.frame (.server n) = .idle ∧ CloseDue n d t)
      (.inl ⟨_, hf, nofun, nofun, by simp [NotifyLine.done]⟩) ?_
    rintro a u v hu ⟨hcall, hst⟩ hs
    have hstep := gateway_step.mp hs
    obtain ⟨l, hfu, hw⟩ := hu.resolve_right fun hi => hcall hi.1
    by_cases ha : ∃ choice, a = .run (.server n) choice
    · obtain ⟨choice, rfl⟩ := ha
      cases hstep with
      | run hn =>
        rw [State.setFrame_frame_self]
        exact hw.run hfu hst hn
    · exact .inl ⟨l, (calling_frame hcall hstep ha).trans hfu, hw.created, hw.last,
        fun hd => (hw.due hd).step hstep⟩
  intro bs u hu
  refine hu.invariant (P := CloseDue n d) ?_ fun _ _ _ hd _ hs => hd.step (gateway_step.mp hs)
  rcases this with ⟨l, hl, -⟩ | ⟨-, hd⟩
  · simp [ht] at hl
  · exact hd

def notifyBegins : List Action := join 0 "a" ++ [.call 0 .notifyAllDisconnect]

def notifyOne : List Action :=
  [.run (.server 0) .proceed, .run (.server 0) (.fetch "a"), .run (.server 0) .proceed,
    .run (.server 0) .proceed, .run (.server 0) .finish]

theorem notify_closes_notifyOne :
    CloseDue 0 (newDescriptor (connectAs "a") 0 0) (after (notifyBegins ++ notifyOne)) :=
  notify_closes (c := "a") (s := after notifyBegins) rfl (path_after (by decide) (by decide))
    (Frame.isIdle_iff.mp (by decide)) [] _ .nil

end ImProxy
