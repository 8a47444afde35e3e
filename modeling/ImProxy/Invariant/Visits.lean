import ImProxy.Invariant.Loss
import ImProxy.Invariant.Order

/-! # The entries a broadcast visits

The iterator of a broadcast returns every entry at most once. Behind the filter it is
never at an entry of its own channel: the filter compares client ids and not channels,
but a channel carries its client id from the CONNECT on that registered it. A channel
with one descriptor is therefore written to at most once, and the own one never.
-/

set_option autoImplicit false

namespace ImProxy

open Concurrent Transition

variable {g : Gateway} {s s' : State} {choice : Choice} {f f' : Frame} {i : Instr}
  {x y : ChannelId} {c : Channel} {d : Descriptor}

/-! ## The own channel -/

/-- Behind the filter a broadcast is not at an entry of its own channel. -/
def Frame.Others (x : ChannelId) : Frame → Prop
  | .push _ _ _ (.app _ d) => d.channel ≠ x
  | .push _ _ _ (.imId _ d) => d.channel ≠ x
  | .push _ _ _ (.write _ d) => d.channel ≠ x
  | _ => True

theorem Frame.Begins.others (h : f.Begins x) : f.Others y := by
  cases h <;> trivial

theorem Frame.Loses.others (h : f.Loses x) : f.Others y := by
  cases h <;> trivial

/-- The filter tells the own channel apart: a registered channel outside of `processConnect`
carries a client id. -/
theorem filter_own (hr : (gateway g).Reachable s) {content : String} {clientId : Option String}
    {filtered : Bool} {it : Cursor}
    (hf : s.frame (.loop x) = .push content clientId filtered (.filter it d))
    (hd : d.channel = x) : (filtered && hasLength clientId) = true ∧
      (s.channel d.channel).attributes.clientID = clientId := by
  subst hd
  have hl := reachable_lifecycle hr d.channel
  have hh := reachable_handles hr d.channel
  have ho := reachable_owned hr (.loop d.channel)
  have hrefs := (reachable_registry hr).refs (.loop d.channel)
  rw [hf] at hl hh ho hrefs
  obtain ⟨-, -, -, hc⟩ := hh
  have hne := (hrefs.1.last hrefs.2).connects_ne_nil
  have hid : (s.channel d.channel).attributes.clientID =
      (s.channel d.channel).connects.getLast?.map MqttConnectMessage.clientId := by
    rw [hl.clientID, Channel.past_of_lt (by simp [Frame.stage])]
  obtain ⟨msg, hm⟩ := List.getLast?_isSome.mpr hne |> Option.isSome_iff_exists.mp
  rw [hm] at hid
  have hlen : hasLength clientId = true := by
    rw [hc, hid]
    exact hasLength_iff.mpr ⟨_, rfl, clientID_ne hl hid⟩
  exact ⟨by simp [show filtered = true from ho, hlen], hc.symm⟩

theorem others_local_invariant : LocalInvariant g System.always x fun _ f => f.Others x where
  tasks _ h := h
  init := trivial
  read q _ _ _ _ := (channelRead_begins ..).others
  lose _ := (channelInactive_loses ..).others
  readerIdle _ _ := (channelInactive_loses ..).others
  exceptionCaught _ := trivial
  peerClose _ := trivial
  task _ _ _ _ _ _ _ := trivial
  run {s choice i f} hr _ _ hn h := by
    generalize hf : s.frame (.loop x) = f₀ at hn h
    cases next_statement hn with
    | filterOther _ _ hc => exact fun hd => hc (filter_own hr hf hd).2
    | filterOff hb => exact fun hd => by simp [(filter_own hr hf hd).1] at hb
    | pushApp | pushImId => exact h
    | _ => trivial

theorem reachable_others (h : (gateway g).Reachable s) (x : ChannelId) :
    (s.frame (.loop x)).Others x := others_local_invariant.reachable h

/-! ## Visits -/

/-- While its event loop is in this frame, the message being handled may have put a PUBLISH on
channel `y` already. -/
def Frame.Visits (y : ChannelId) : Frame → Prop
  | .connect _ _ l => 2 < l.stage
  | .pubAck _ _ _ _ => False
  | .push _ _ _ .iterator => False
  | .push _ _ _ (.loop it) => ∃ e ∈ it.returned, e.2.channel = y
  | .push _ _ _ (.filter it _) => ∃ e ∈ it.returned.dropLast, e.2.channel = y
  | .push _ _ _ (.app it _) => ∃ e ∈ it.returned.dropLast, e.2.channel = y
  | .push _ _ _ (.imId it _) => ∃ e ∈ it.returned.dropLast, e.2.channel = y
  | .push _ _ _ (.write it _) => ∃ e ∈ it.returned.dropLast, e.2.channel = y
  | _ => True

theorem Frame.Loses.visits (h : f.Loses x) : f.Visits y := by
  cases h <;> trivial

theorem next_visits (hv : f.Visits y) (h : next g s (.loop x) choice f = some (i, f')) :
    f'.Visits y := by
  have back : ∀ {it : Cursor}, (∃ e ∈ it.returned.dropLast, e.2.channel = y) →
      ∃ e ∈ it.returned, e.2.channel = y := by
    rintro it ⟨e, he, hy⟩
    exact ⟨e, List.mem_of_mem_dropLast he, hy⟩
  cases next_statement h with
  | notConnected | isConnected | pubAckFound | pubAck | pushIterator => exact hv.elim
  | pushFetch hit =>
    obtain ⟨d, -, -, -, hret, -⟩ := Iterator.fetch_eq_some hit
    simpa only [Frame.Visits, hret] using hv
  | pushNext hit =>
    obtain ⟨-, -, hret⟩ := Iterator.next_eq_some hit
    simpa only [Frame.Visits, hret, List.dropLast_concat] using hv
  | filterOther | filterOff | pushApp | pushImId => exact hv
  | filterOwn | pushNoApp | pushNoImId | push => exact back hv
  | get | putNew | putOver | evictWrite | evictAbort => simp_all [Frame.Visits, ConnectLine.stage]
  | _ => simp [Frame.Visits, ConnectLine.stage, thrown]

/-- A PUBLISH is written where the handler has not been yet, if the channel has one descriptor. -/
theorem write_visits {q : MqttMessage} (hr : (gateway g).Reachable s)
    (hn : next g s (.loop x) choice (s.frame (.loop x)) = some (.write y q, f))
    (hq : q.isPublish = true) : f.Visits y ∧
      (x = y ∨ (s.channel y).connects.length ≤ 1 → ¬(s.frame (.loop x)).Visits y) := by
  have ho := reachable_owned hr (.loop x)
  have hrefs := (reachable_registry hr).refs (.loop x)
  have hoth := reachable_others hr x
  have hh := reachable_handles hr x
  generalize s.frame (.loop x) = f₀ at hn ho hrefs hoth hh
  cases next_statement hn with
  | reply => simp [hh.1.2.1] at hq
  | refuse =>
    obtain ⟨msg, code, -, -, rfl⟩ := hh
    cases hq
  | evictWrite => simp [Frame.Visits, ConnectLine.stage]
  | connAck | pubAck => cases hq
  | messageWrite => exact ho.elim
  | @push _ _ _ it d =>
    refine ⟨⟨_, List.mem_of_getLast? hrefs.2, rfl⟩, ?_⟩
    rintro (hx | hlen) ⟨e, he, hy⟩
    · exact hoth hx.symm
    · -- the entry returned last was not returned before
      obtain ⟨hid, hpub⟩ := hrefs.1 e (List.mem_append_left _ (List.mem_of_mem_dropLast he))
      have hd := hpub.eq (hrefs.1.last hrefs.2) hy (hy ▸ hlen)
      obtain rfl : e = (d.clientID, d) := Prod.ext (hd ▸ hid.symm) hd
      exact Iterator.last_not_mem hrefs.2 he

theorem visits_marks (g : Gateway) (x : ChannelId) :
    Marks g x MqttMessage.isPublish Frame.Visits where
  inactive _ _ := (channelInactive_loses ..).visits
  close _ := trivial
  next _ := next_visits
  write hr hn hq := (write_visits hr hn hq).1

end ImProxy
