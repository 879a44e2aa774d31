import Mathlib.Logic.Function.Basic
import SshTunnels.Proofs.Relay.Accounting
import SshTunnels.Proofs.Sessions.Ledger
import SshTunnels.Tunnel.Run

/-!
# Accounting for sessions

A run of a tunnel with the sessions of its users and the relay of each session. When the run is
over, sessions that are still open are cut off one after the other, each wherever it stands, and
until then they go on.

A session that is cut off reports no end, and what its relay has counted is missing from the
totals. `Traffic.balanced_iff_of_reachable` says that nothing else is ever missing;
`unbalanced_when_cut_off` is a user whose bytes are not counted.
-/

namespace SshTunnels

/-- A run of a tunnel, its sessions, their relays, and the sessions that were cut off while they
were open. -/
structure Traffic where
  run : TunnelRun
  ledger : SessionLedger := {}
  relay : Uuid → Relay := fun _ => .start
  cut : List Uuid := []

/-- What happens to a run and to its sessions. -/
inductive TrafficEvent where
  | run (event : RunEvent)
  | accepted (id : Uuid) (peer : String)
  | begins (id : Uuid)
  | answeredDial (id : Uuid) (outcome : Except TunnelError Unit)
  | answered (id : Uuid) (source : Side) (answer : Relay.Answer)
  | shutdownDone (id : Uuid)
  | dropped (id : Uuid)

namespace Traffic

/-- How many bytes the relay of a session has counted from a side. -/
def counter (t : Traffic) (side : Side) (id : Uuid) : Nat :=
  ((t.relay id).direction side).copied

/-- The bytes that have passed a relay by an answer. -/
def passed (t : Traffic) (id : Uuid) (r : Relay) : SessionEvent :=
  .relayed (r.aToB.copied - t.counter .a id) (r.bToA.copied - t.counter .b id)

/-- What an event makes of a run and its sessions. -/
def step (t : Traffic) : TrafficEvent → Traffic
  | .run event => { t with run := t.run.step event }
  | .accepted id peer => { t with ledger := t.ledger.accept id peer }
  | .begins id => { t with ledger := t.ledger.step id .begin }
  | .answeredDial id (.ok ()) => { t with ledger := t.ledger.step id .dialed }
  | .answeredDial id (.error e) => { t with ledger := t.ledger.step id (.dialFailed e) }
  | .answered id source answer =>
    let r := (t.relay id).step source answer
    { t with
      relay := Function.update t.relay id r
      ledger := t.ledger.step id (t.passed id r) }
  | .shutdownDone id =>
    let r := (t.relay id).shutdownDone
    { t with
      relay := Function.update t.relay id r
      ledger := match r.stage with
        | .returned fault => t.ledger.step id (.relayEnded (fault.map .io))
        | _ => t.ledger }
  | .dropped id =>
    { t with
      ledger := t.ledger.step id .dropped
      cut := if (t.ledger.session? id).any (·.isOpen) then id :: t.cut else t.cut }

/-- Users are accepted while the run serves them, each as a new session; a relay moves while its
session relays; and sessions are dropped when the run is over. What drops a session is the cancelled
token that it shares with the run, which it may see before or after the run returns: the run's
result stands for the cancelled token here. -/
def Possible (t : Traffic) : TrafficEvent → Prop
  | .accepted id _ => t.run.isServing = true ∧ t.ledger.session? id = none
  | .answered id _ _ | .shutdownDone id => t.ledger.isRelaying id = true
  | .dropped _ => t.run.result?.isSome = true
  | .run _ | .begins _ | .answeredDial _ _ => True

instance (t : Traffic) : (event : TrafficEvent) → Decidable (t.Possible event)
  | .accepted _ _ => inferInstanceAs (Decidable (_ = true ∧ _ = none))
  | .answered _ _ _ | .shutdownDone _ | .dropped _ => inferInstanceAs (Decidable (_ = true))
  | .run _ | .begins _ | .answeredDial _ _ => inferInstanceAs (Decidable True)

/-- What a run of a kind of tunnel can come to. -/
inductive Reachable (kind : TunnelKind) : Traffic → Prop where
  | start : Reachable kind { run := .start kind }
  | next {t : Traffic} (event : TrafficEvent) : Reachable kind t → t.Possible event →
      Reachable kind (t.step event)

/-- Each event of a list is possible when its turn comes. -/
def Plays (t : Traffic) : List TrafficEvent → Prop
  | [] => True
  | event :: events => t.Possible event ∧ (t.step event).Plays events

instance decidablePlays (t : Traffic) : (events : List TrafficEvent) → Decidable (t.Plays events)
  | [] => inferInstanceAs (Decidable True)
  | event :: events =>
    have := decidablePlays (t.step event) events
    inferInstanceAs (Decidable (t.Possible event ∧ (t.step event).Plays events))

theorem Reachable.plays {t : Traffic} {kind : TunnelKind} (hr : Reachable kind t)
    (events : List TrafficEvent) (hp : t.Plays events) :
    Reachable kind (events.foldl step t) := by
  induction events generalizing t with
  | nil => exact hr
  | cons event events ih => exact ih (hr.next event hp.1) hp.2

end Traffic

/-! ## The course of one session -/

namespace UserSession

open SessionLedger (closing)

/-- How a session got where it is: what it has reported, what its relay has counted from either
side, and whether it was cut off while it was open. -/
inductive Course (s : UserSession) : List LifecycleReport → (Side → Nat) → Bool → Prop where
  | waiting {n : Side → Nat} : s.phase = .accepted → (∀ side, n side = 0) → Course s [] n false
  | dialing {n : Side → Nat} :
      s.phase = .dialing → (∀ side, n side = 0) → Course s [s.opening] n false
  | relaying {n : Side → Nat} :
      s.phase = .relaying (n .a) (n .b) → Course s [s.opening] n false
  | unopened {n : Side → Nat} : s.phase = .ended → (∀ side, n side = 0) → Course s [] n false
  | refused {n : Side → Nat} (e : TunnelError) : s.phase = .ended → (∀ side, n side = 0) →
      Course s [s.opening, .sessionError s.id e] n false
  | closed {n : Side → Nat} (fault : Option SshError) : s.phase = .ended →
      Course s (s.opening :: closing s.id (n .a) (n .b) fault) n false
  | cut {n : Side → Nat} : s.phase = .ended → Course s [s.opening] n true

/-- The bytes that are counted of a session of whose relay has counted `n`: all of them if it has
ended and was not cut off, and none otherwise. -/
def counted (s : UserSession) (n : Nat) (isCut : Bool) : Nat :=
  if s.phase = .ended ∧ isCut = false then n else 0

variable {s : UserSession} {event : SessionEvent} {phase : SessionPhase}
  {reports new : List LifecycleReport} {n amount : Side → Nat} {isCut : Bool}

theorem counted_of_ended (hp : s.phase = .ended) (k : Nat) : s.counted k false = k :=
  if_pos ⟨hp, rfl⟩

theorem counted_of_not_ended (hp : s.phase ≠ .ended) (k : Nat) (isCut : Bool) :
    s.counted k isCut = 0 :=
  if_neg fun h => hp h.1

theorem counted_of_cut (s : UserSession) (k : Nat) : s.counted k true = 0 :=
  if_neg fun h => Bool.noConfusion h.2

theorem Course.of_accepted (hc : s.Course reports n isCut) (hp : s.phase = .accepted) :
    reports = [] ∧ (∀ side, n side = 0) ∧ isCut = false := by
  cases hc with
  | waiting _ hn => exact ⟨rfl, hn, rfl⟩
  | dialing h _ | relaying h | unopened h _ | refused _ h _ | closed _ h | cut h =>
    cases hp.symm.trans h

theorem Course.of_dialing (hc : s.Course reports n isCut) (hp : s.phase = .dialing) :
    reports = [s.opening] ∧ (∀ side, n side = 0) ∧ isCut = false := by
  cases hc with
  | dialing _ hn => exact ⟨rfl, hn, rfl⟩
  | waiting h _ | relaying h | unopened h _ | refused _ h _ | closed _ h | cut h =>
    cases hp.symm.trans h

theorem Course.of_relaying {rcvd sent : Nat} (hc : s.Course reports n isCut)
    (hp : s.phase = .relaying rcvd sent) :
    reports = [s.opening] ∧ n .a = rcvd ∧ n .b = sent ∧ isCut = false := by
  cases hc with
  | relaying h =>
    cases hp.symm.trans h
    exact ⟨rfl, rfl, rfl, rfl⟩
  | waiting h _ | dialing h _ | unopened h _ | refused _ h _ | closed _ h | cut h =>
    cases hp.symm.trans h

theorem Course.of_open (hc : s.Course reports n isCut) (ho : s.isOpen = true) :
    reports = [s.opening] ∧ isCut = false := by
  cases hp : s.phase with
  | dialing => exact ⟨(hc.of_dialing hp).1, (hc.of_dialing hp).2.2⟩
  | relaying _ _ => exact ⟨(hc.of_relaying hp).1, (hc.of_relaying hp).2.2.2⟩
  | accepted | ended =>
    rw [isOpen, hp] at ho
    cases ho

/-- A turn takes a session further on its course. -/
theorem Course.turn (hc : s.Course reports n isCut) (ht : s.Turn event phase new amount) :
    UserSession.Course { s with phase } (reports ++ new) (fun side => n side + event.moved side)
      (isCut || event.isDrop && s.isOpen) := by
  cases ht with
  | begins hp =>
    obtain ⟨rfl, hn, rfl⟩ := hc.of_accepted hp
    exact .dialing rfl hn
  | leaves hp =>
    obtain ⟨rfl, hn, rfl⟩ := hc.of_accepted hp
    have ho : s.isOpen = false := by rw [isOpen, hp]
    rw [ho]
    exact .unopened rfl hn
  | dialed hp =>
    obtain ⟨rfl, hn, rfl⟩ := hc.of_dialing hp
    refine .relaying ?_
    rw [hn, hn]
    rfl
  | dialFailed e hp =>
    obtain ⟨rfl, hn, rfl⟩ := hc.of_dialing hp
    exact .refused e rfl hn
  | relayed r t hp =>
    obtain ⟨rfl, rfl, rfl, rfl⟩ := hc.of_relaying hp
    exact .relaying rfl
  | closes fault hp =>
    obtain ⟨rfl, rfl, rfl, rfl⟩ := hc.of_relaying hp
    exact .closed fault rfl
  | cut ho =>
    obtain ⟨rfl, rfl⟩ := hc.of_open ho
    rw [ho]
    exact .cut rfl

theorem Turn.not_ended (ht : s.Turn event phase new amount) : s.phase ≠ .ended := by
  intro he
  cases ht with
  | begins hp | leaves hp | dialed hp | dialFailed _ hp | relayed _ _ hp | closes _ hp =>
    cases he.symm.trans hp
  | cut ho =>
    rw [isOpen, he] at ho
    cases ho

/-- What a turn counts is what is counted of its session from then on. -/
theorem Course.counted_turn (hc : s.Course reports n isCut) (ht : s.Turn event phase new amount)
    (side : Side) : UserSession.counted { s with phase } (n side + event.moved side)
      (isCut || event.isDrop && s.isOpen) = s.counted (n side) isCut + amount side := by
  rw [counted_of_not_ended ht.not_ended, Nat.zero_add]
  cases ht with
  | begins _ | dialed _ | relayed _ _ _ => exact if_neg fun h => nomatch h.1
  | leaves hp =>
    obtain ⟨-, hn, rfl⟩ := hc.of_accepted hp
    have ho : s.isOpen = false := by rw [isOpen, hp]
    rw [ho]
    exact (if_pos ⟨rfl, rfl⟩).trans (hn side)
  | dialFailed e hp =>
    obtain ⟨-, hn, rfl⟩ := hc.of_dialing hp
    exact (if_pos ⟨rfl, rfl⟩).trans (hn side)
  | closes fault hp =>
    obtain ⟨-, rfl, rfl, rfl⟩ := hc.of_relaying hp
    rw [hp]
    refine (if_pos ⟨rfl, rfl⟩).trans ?_
    cases side <;> rfl
  | cut ho =>
    have hcut : (isCut || SessionEvent.dropped.isDrop && s.isOpen) = true := by
      rw [ho]
      exact Bool.or_true isCut
    rw [hcut, counted_of_cut]

end UserSession

/-! ## What an event can do -/

/-- A relay never counts back. -/
theorem Relay.copied_le (r : Relay) (source : Side) (a : Relay.Answer) (side : Side) :
    (r.direction side).copied ≤ ((r.step source a).direction side).copied := by
  by_cases hstage : r.stage = .copying
  · rw [Relay.direction_step hstage]
    split
    · exact Relay.copied_le_step _ a
    · exact Nat.le_refl _
  · rw [Relay.step]
    split
    · contradiction
    · exact Nat.le_refl _

namespace Traffic

variable {t t' : Traffic} {kind : TunnelKind} {id : Uuid} {event : SessionEvent}

/-- The session was cut off while it was open. -/
def isCut (t : Traffic) (id : Uuid) : Bool :=
  decide (id ∈ t.cut)

/-- What an event makes of the sessions: nothing, or it adds one, or turns one. -/
inductive Moves (t : Traffic) : Traffic → Prop where
  | idle {t' : Traffic} : t'.ledger = t.ledger →
      (∀ side id, t'.counter side id = t.counter side id) → t'.cut = t.cut → Moves t t'
  | accepts {t' : Traffic} {id : Uuid} (peer : String) : t.ledger.session? id = none →
      t' = { t with ledger := t.ledger.accept id peer } → Moves t t'
  | turns {t' : Traffic} {s : UserSession} {event : SessionEvent} {phase : SessionPhase}
      {new : List LifecycleReport} {n : Side → Nat} : s ∈ t.ledger.sessions →
      s.Turn event phase new n → t.ledger.Turned t'.ledger s.id phase new n →
      (∀ side, t'.counter side s.id = t.counter side s.id + event.moved side) →
      t'.isCut s.id = (t.isCut s.id || event.isDrop && s.isOpen) →
      (∀ id, id ≠ s.id →
        t'.isCut id = t.isCut id ∧ ∀ side, t'.counter side id = t.counter side id) →
      Moves t t'

/-- An event of a session that moves no bytes and drops nobody. -/
theorem moves_quiet (hm : ∀ side, event.moved side = 0) (hd : event.isDrop = false) (id : Uuid) :
    Moves t { t with ledger := t.ledger.step id event } := by
  rcases t.ledger.step_cases id event with heq | ⟨s, phase, new, n, hs, ht⟩
  · exact .idle heq (fun _ _ => rfl) rfl
  · have hturned := SessionLedger.turned_step hs ht
    obtain ⟨hmem, rfl⟩ := SessionLedger.mem_of_session? hs
    refine .turns hmem ht hturned (fun side => ?_) ?_ fun _ _ => ⟨rfl, fun _ => rfl⟩
    · rw [hm]
      rfl
    · rw [hd, Bool.false_and, Bool.or_false]
      rfl

theorem exists_relaying (h : t.ledger.isRelaying id = true) :
    ∃ s rcvd sent, t.ledger.session? id = some s ∧ s.phase = .relaying rcvd sent := by
  rw [SessionLedger.isRelaying, Option.any_eq_true] at h
  obtain ⟨s, hs, hp⟩ := h
  cases hphase : s.phase with
  | relaying rcvd sent => exact ⟨s, rcvd, sent, hs, hphase⟩
  | _ =>
    rw [hphase] at hp
    cases hp

theorem counter_update (side : Side) (id id' : Uuid) (r : Relay) {ledger : SessionLedger} :
    ({ t with relay := Function.update t.relay id r, ledger } : Traffic).counter side id' =
      if id' = id then (r.direction side).copied else t.counter side id' := by
  simp only [counter, Function.update_apply]
  split <;> rfl

theorem moves_answered (h : t.ledger.isRelaying id = true) (source : Side) (a : Relay.Answer) :
    Moves t (t.step (.answered id source a)) := by
  obtain ⟨s, rcvd, sent, hs, hp⟩ := exists_relaying h
  obtain ⟨hmem, rfl⟩ := SessionLedger.mem_of_session? hs
  refine .turns hmem (.relayed _ _ hp) (SessionLedger.turned_step hs (.relayed _ _ hp))
    (fun side => ?_) ?_ fun id hid => ⟨rfl, fun side => ?_⟩
  · rw [step, counter_update, if_pos rfl]
    have hle := (t.relay s.id).copied_le source a side
    cases side <;> exact (Nat.add_sub_cancel' hle).symm
  · exact (Bool.or_false _).symm
  · rw [step, counter_update, if_neg hid]

theorem moves_shutdownDone (h : t.ledger.isRelaying id = true) :
    Moves t (t.step (.shutdownDone id)) := by
  have hcounter : ∀ side id',
      (t.step (.shutdownDone id)).counter side id' = t.counter side id' := by
    intro side id'
    rw [step, counter_update]
    split
    · next hid => rw [hid, Relay.direction_shutdownDone, counter]
    · rfl
  obtain ⟨s, rcvd, sent, hs, hp⟩ := exists_relaying h
  obtain ⟨hmem, rfl⟩ := SessionLedger.mem_of_session? hs
  cases hstage : (t.relay s.id).shutdownDone.stage with
  | returned fault =>
    have hledger : (t.step (.shutdownDone s.id)).ledger =
        t.ledger.step s.id (.relayEnded (fault.map .io)) := by
      simp only [step, hstage]
    refine .turns hmem (.closes (fault.map .io) hp) ?_ (hcounter · s.id) ?_
      fun id _ => ⟨rfl, (hcounter · id)⟩
    · rw [hledger]
      exact SessionLedger.turned_step hs (.closes (fault.map .io) hp)
    · exact (Bool.or_false _).symm
  | _ =>
    refine .idle ?_ hcounter rfl
    simp only [step, hstage]

theorem moves_dropped (t : Traffic) (id : Uuid) : Moves t (t.step (.dropped id)) := by
  cases hs : t.ledger.session? id with
  | none =>
    simp only [step, hs, SessionLedger.step]
    exact .idle rfl (fun _ _ => rfl) rfl
  | some s =>
    obtain ⟨hmem, rfl⟩ := SessionLedger.mem_of_session? hs
    cases ho : s.isOpen with
    | false =>
      simp only [step, hs, Option.any_some, ho, Bool.false_eq_true, if_false]
      rcases t.ledger.step_cases s.id .dropped with heq | ⟨s', phase, new, n, hs', ht⟩
      · exact .idle heq (fun _ _ => rfl) rfl
      · cases hs.symm.trans hs'
        refine .turns hmem ht (SessionLedger.turned_step hs ht) (fun _ => rfl) ?_
          fun _ _ => ⟨rfl, fun _ => rfl⟩
        rw [ho, Bool.and_false, Bool.or_false]
        rfl
    | true =>
      simp only [step, hs, Option.any_some, ho, if_true]
      refine .turns hmem (.cut ho) (SessionLedger.turned_step hs (.cut ho)) (fun _ => rfl) ?_ ?_
      · rw [ho, isCut, decide_eq_true List.mem_cons_self]
        exact (Bool.or_true _).symm
      · intro id hid
        refine ⟨?_, fun _ => rfl⟩
        rw [isCut, isCut, decide_eq_decide, List.mem_cons]
        exact or_iff_right hid

/-- What can happen does one of these things to the sessions. -/
theorem moves_step {event : TrafficEvent} (hp : t.Possible event) : Moves t (t.step event) := by
  cases event with
  | run event => exact .idle rfl (fun _ _ => rfl) rfl
  | accepted id peer => exact .accepts peer hp.2 rfl
  | begins id => exact moves_quiet (fun _ => rfl) rfl id
  | answeredDial id outcome =>
    cases outcome with
    | ok _ => exact moves_quiet (fun _ => rfl) rfl id
    | error e => exact moves_quiet (fun _ => rfl) rfl id
  | answered id source a => exact moves_answered hp source a
  | shutdownDone id => exact moves_shutdownDone hp
  | dropped id => exact moves_dropped t id

/-! ## What holds of every session -/

/-- Every session is on its course, and the totals are sums over the sessions. -/
structure Orderly (t : Traffic) : Prop where
  distinct : t.ledger.Distinct
  course : ∀ s ∈ t.ledger.sessions,
    s.Course (t.ledger.reportsOf s.id) (t.counter · s.id) (t.isCut s.id)
  fresh : ∀ id, t.ledger.session? id = none →
    t.ledger.reportsOf id = [] ∧ (∀ side, t.counter side id = 0) ∧ t.isCut id = false
  total : ∀ side, t.ledger.total side =
    (t.ledger.sessions.map fun s => s.counted (t.counter side s.id) (t.isCut s.id)).sum

theorem Orderly.idle (h : Orderly t) (hl : t'.ledger = t.ledger)
    (hn : ∀ side id, t'.counter side id = t.counter side id) (hcut : t'.cut = t.cut) :
    Orderly t' := by
  have hcutid : ∀ id, t'.isCut id = t.isCut id := fun id => by rw [isCut, isCut, hcut]
  constructor
  · exact hl ▸ h.distinct
  · intro s hs
    simp only [hl, hn, hcutid] at hs ⊢
    exact h.course s hs
  · intro id hid
    simp only [hl, hn, hcutid] at hid ⊢
    exact h.fresh id hid
  · intro side
    simp only [hl, hn, hcutid]
    exact h.total side

theorem Orderly.accepts (h : Orderly t) (peer : String) (hid : t.ledger.session? id = none) :
    Orderly { t with ledger := t.ledger.accept id peer } := by
  have hfresh := h.fresh id hid
  constructor
  · exact SessionLedger.distinct_accept h.distinct hid peer
  · intro s hs
    rcases List.mem_append.mp hs with hs | hs
    · exact h.course s hs
    · rw [List.mem_singleton.mp hs]
      exact hfresh.2.2 ▸ hfresh.1 ▸ .waiting rfl hfresh.2.1
  · intro id' hid'
    refine h.fresh id' (SessionLedger.session?_eq_none_iff.mpr fun s hs => ?_)
    exact SessionLedger.session?_eq_none_iff.mp hid' s (List.mem_append_left _ hs)
  · intro side
    refine (h.total side).trans ?_
    rw [SessionLedger.accept, List.map_append, List.sum_append]
    exact (Nat.add_zero _).symm

theorem Orderly.turns {s : UserSession} {phase : SessionPhase} {new : List LifecycleReport}
    {n : Side → Nat} (h : Orderly t) (hs : s ∈ t.ledger.sessions) (ht : s.Turn event phase new n)
    (hturned : t.ledger.Turned t'.ledger s.id phase new n)
    (hcount : ∀ side, t'.counter side s.id = t.counter side s.id + event.moved side)
    (hcut : t'.isCut s.id = (t.isCut s.id || event.isDrop && s.isOpen))
    (hother : ∀ id, id ≠ s.id →
      t'.isCut id = t.isCut id ∧ ∀ side, t'.counter side id = t.counter side id) :
    Orderly t' := by
  constructor
  · exact hturned.distinct h.distinct
  · intro s' hs'
    rw [hturned.sessions] at hs'
    rcases SessionLedger.mem_put.mp hs' with ⟨hs', hid⟩ | ⟨s₀, hs₀, hid, rfl⟩
    · obtain ⟨hcut', hcount'⟩ := hother s'.id hid
      simp only [SessionLedger.reportsOf_turn_ne ht hturned hid, hcut', hcount']
      exact h.course s' hs'
    · obtain rfl := SessionLedger.eq_of_id_eq h.distinct hs hs₀ hid
      simp only [SessionLedger.reportsOf_turn_self ht hturned, hcut, hcount]
      exact (h.course s₀ hs₀).turn ht
  · intro id hid
    have hnone : t.ledger.session? id = none := by
      rw [SessionLedger.session?_eq_none_iff] at hid ⊢
      intro s' hs' heq
      have hids := SessionLedger.ids_put t.ledger s.id phase
      rw [← hturned.sessions] at hids
      have hmem : id ∈ t'.ledger.sessions.map (·.id) :=
        hids ▸ List.mem_map.mpr ⟨s', hs', heq⟩
      obtain ⟨s'', hs'', heq'⟩ := List.mem_map.mp hmem
      exact hid s'' hs'' heq'
    have hne : id ≠ s.id := fun heq =>
      SessionLedger.session?_eq_none_iff.mp hnone s hs heq.symm
    obtain ⟨hcut', hcount'⟩ := hother id hne
    simp only [SessionLedger.reportsOf_turn_ne ht hturned hne, hcut', hcount']
    exact h.fresh id hnone
  · intro side
    have hsum := SessionLedger.sum_put phase h.distinct hs
      (f := fun s' => s'.counted (t.counter side s'.id) (t.isCut s'.id))
      (g := fun s' => s'.counted (t'.counter side s'.id) (t'.isCut s'.id))
      (fun s' _ hid => by rw [(hother s'.id hid).1, (hother s'.id hid).2])
    have hnew := (h.course s hs).counted_turn ht side
    simp only [hcut, hcount] at hsum
    rw [hturned.total, h.total, hturned.sessions]
    omega

theorem Orderly.moves (h : Orderly t) (hm : Moves t t') : Orderly t' := by
  cases hm with
  | idle hl hn hcut => exact h.idle hl hn hcut
  | accepts peer hid heq => exact heq ▸ h.accepts peer hid
  | turns hs ht hturned hcount hcut hother => exact h.turns hs ht hturned hcount hcut hother

theorem orderly_start (run : TunnelRun) : Orderly { run } where
  distinct := List.nodup_nil
  course := nofun
  fresh := fun _ _ => ⟨rfl, fun side => by cases side <;> rfl, rfl⟩
  total := fun side => by cases side <;> rfl

theorem Reachable.orderly (hr : Reachable kind t) : Orderly t := by
  induction hr with
  | start => exact orderly_start _
  | next event _ hp ih => exact ih.moves (moves_step hp)

/-! ## When a session can be cut off -/

/-- A run that is over stays as it is. -/
theorem step_of_over {run : TunnelRun} (ho : run.result?.isSome = true) (event : RunEvent) :
    run.step event = run := by
  cases hp : run.phase with
  | ended fault => simp only [TunnelRun.step, hp]
  | _ =>
    simp only [TunnelRun.result?, hp] at ho
    cases ho

/-- While the run lasts, nobody is cut off. -/
theorem Reachable.cut_eq_nil (hr : Reachable kind t) (hrun : t.run.result? = none) :
    t.cut = [] := by
  induction hr with
  | start => rfl
  | @next t event _ hp ih =>
    cases event with
    | run event =>
      refine ih (Option.not_isSome_iff_eq_none.mp fun ho => ?_)
      rw [step, step_of_over ho, ← Option.not_isSome_iff_eq_none] at hrun
      exact hrun ho
    | dropped id => exact absurd hp (Option.not_isSome_iff_eq_none.mpr hrun)
    | answeredDial id outcome => cases outcome <;> exact ih hrun
    | _ => exact ih hrun

/-! ## The balance -/

/-- The reports of a session that has ended once: after its opening comes the error of a dial that
failed, or a close with the counts of the relay, which a fault of the relay may precede. -/
inductive EndsOnce (s : UserSession) (n : Side → Nat) : List LifecycleReport → Prop where
  | refused (e : TunnelError) :
      (∀ side, n side = 0) → EndsOnce s n [s.opening, .sessionError s.id e]
  | closed (fault : Option SshError) :
      EndsOnce s n (s.opening :: SessionLedger.closing s.id (n .a) (n .b) fault)

/-- Every session that has reported its opening has reported one end, and the totals are the sums of
what the relays of all sessions have counted. -/
structure Balanced (t : Traffic) : Prop where
  ends : ∀ s ∈ t.ledger.sessions, s.opening ∈ t.ledger.reportsOf s.id →
    EndsOnce s (t.counter · s.id) (t.ledger.reportsOf s.id)
  total : ∀ side,
    t.ledger.total side = (t.ledger.sessions.map fun s => t.counter side s.id).sum

/-- What the relays of sessions that were cut off have counted from a side. -/
def missed (t : Traffic) (side : Side) : Nat :=
  ((t.ledger.sessions.filter fun s => t.isCut s.id).map fun s => t.counter side s.id).sum

theorem sum_add_sum_filter {α : Type} {l : List α} {p : α → Bool} {f g : α → Nat}
    (hf : ∀ a ∈ l, g a = if p a then 0 else f a) :
    (l.map g).sum + ((l.filter p).map f).sum = (l.map f).sum := by
  induction l with
  | nil => rfl
  | cons a l ih =>
    have hrest := ih fun b hb => hf b (List.mem_cons_of_mem _ hb)
    have ha := hf a List.mem_cons_self
    cases hp : p a with
    | true =>
      rw [hp, if_pos rfl] at ha
      rw [List.filter_cons_of_pos hp]
      simp only [List.map_cons, List.sum_cons, ha]
      omega
    | false =>
      rw [hp, if_neg Bool.false_ne_true] at ha
      rw [List.filter_cons_of_neg (Bool.eq_false_iff.mp hp)]
      simp only [List.map_cons, List.sum_cons, ha]
      omega

theorem Orderly.total_add_missed (h : Orderly t)
    (hover : ∀ s ∈ t.ledger.sessions, s.phase = .ended) (side : Side) :
    t.ledger.total side + t.missed side =
      (t.ledger.sessions.map fun s => t.counter side s.id).sum := by
  rw [h.total, missed]
  refine sum_add_sum_filter fun s hs => ?_
  cases hcut : t.isCut s.id with
  | true =>
    rw [if_pos rfl]
    exact s.counted_of_cut _
  | false =>
    rw [if_neg Bool.false_ne_true]
    exact UserSession.counted_of_ended (hover s hs) _

end Traffic

namespace UserSession

/-- How a session that is over has reported its end. -/
theorem Course.of_ended {s : UserSession} {reports : List LifecycleReport} {n : Side → Nat}
    {isCut : Bool} (hc : s.Course reports n isCut) (hp : s.phase = .ended) :
    (isCut = true → reports = [s.opening]) ∧
      (isCut = false → reports = [] ∨ Traffic.EndsOnce s n reports) := by
  cases hc with
  | waiting h _ | dialing h _ | relaying h => cases hp.symm.trans h
  | unopened _ _ => exact ⟨nofun, fun _ => .inl rfl⟩
  | refused e _ hn => exact ⟨nofun, fun _ => .inr (.refused e hn)⟩
  | closed fault _ => exact ⟨nofun, fun _ => .inr (.closed fault)⟩
  | cut _ => exact ⟨fun _ => rfl, nofun⟩

end UserSession

namespace Traffic

variable {t : Traffic} {kind : TunnelKind}

theorem not_endsOnce_opening {s : UserSession} {n : Side → Nat} : ¬EndsOnce s n [s.opening] := by
  generalize hr : [s.opening] = reports
  intro h
  cases h with
  | refused e _ => cases hr
  | closed fault =>
    have hnil := (List.cons.inj hr).2.symm
    exact absurd hnil (List.append_ne_nil_of_right_ne_nil _ (List.cons_ne_nil _ _))

/-- When all sessions of a run are over, whatever each of them has met with, they are balanced
exactly if none was cut off while it was open. Who was cut off has reported no end, and what its
relay has counted is all that is missing from the totals. Nobody is cut off while the run lasts. -/
theorem balanced_iff_of_reachable (hr : Reachable kind t)
    (hover : ∀ s ∈ t.ledger.sessions, s.phase = .ended) :
    (Balanced t ↔ t.cut = []) ∧
      (∀ s ∈ t.ledger.sessions, s.id ∈ t.cut → t.ledger.reportsOf s.id = [s.opening]) ∧
      (∀ s ∈ t.ledger.sessions, s.id ∉ t.cut → t.ledger.reportsOf s.id = [] ∨
        EndsOnce s (t.counter · s.id) (t.ledger.reportsOf s.id)) ∧
      (∀ side, t.ledger.total side + t.missed side =
        (t.ledger.sessions.map fun s => t.counter side s.id).sum) ∧
      (t.run.result? = none → t.cut = []) := by
  have ho := hr.orderly
  have hcutoff : ∀ s ∈ t.ledger.sessions, s.id ∈ t.cut →
      t.ledger.reportsOf s.id = [s.opening] := fun s hs hid =>
    ((ho.course s hs).of_ended (hover s hs)).1 (decide_eq_true hid)
  have hends : ∀ s ∈ t.ledger.sessions, s.id ∉ t.cut → t.ledger.reportsOf s.id = [] ∨
      EndsOnce s (t.counter · s.id) (t.ledger.reportsOf s.id) := fun s hs hid =>
    ((ho.course s hs).of_ended (hover s hs)).2 (decide_eq_false hid)
  refine ⟨⟨fun hb => ?_, fun hcut => ⟨fun s hs hopen => ?_, fun side => ?_⟩⟩, hcutoff, hends,
    ho.total_add_missed hover, hr.cut_eq_nil⟩
  · refine List.eq_nil_iff_forall_not_mem.mpr fun id hid => ?_
    cases hs : t.ledger.session? id with
    | none => exact of_decide_eq_false (ho.fresh id hs).2.2 hid
    | some s =>
      obtain ⟨hmem, rfl⟩ := SessionLedger.mem_of_session? hs
      have hreports := hcutoff s hmem hid
      have honce := hb.ends s hmem
      rw [hreports] at honce
      exact not_endsOnce_opening (honce List.mem_cons_self)
  · refine (hends s hs (hcut ▸ List.not_mem_nil)).resolve_left fun hnil => ?_
    rw [hnil] at hopen
    cases hopen
  · rw [← ho.total_add_missed hover side]
    have hnone : t.ledger.sessions.filter (fun s => t.isCut s.id) = [] := by
      refine List.filter_eq_nil_iff.mpr fun s _ hs => ?_
      have hmem : s.id ∈ t.cut := of_decide_eq_true hs
      rw [hcut] at hmem
      cases hmem
    rw [missed, hnone]
    rfl

/-- A standard tunnel opens and lets a user in, of whom three bytes reach the far side. -/
def letterOfThree : List TrafficEvent :=
  [.run (.stepDone .empty), .run (.stepDone .empty), .run (.stepDone .empty),
    .accepted default "user", .begins default, .answeredDial default (.ok ()),
    .answered default .a (.bytes [1, 2, 3]), .answered default .a (.took 3),
    .answered default .a .flushed]

/-- The user leaves: the session closes, and the three bytes are counted. -/
theorem balanced_when_closed : ∃ t, Reachable .standard t ∧
    (∀ s ∈ t.ledger.sessions, s.phase = .ended) ∧ Balanced t ∧ t.ledger.total .a = 3 := by
  have hr := (@Reachable.start .standard).plays
    (letterOfThree ++ [.answered default .a (.bytes []), .answered default .a .flushed,
      .shutdownDone default, .shutdownDone default]) (by decide +kernel)
  exact ⟨_, hr, by decide +kernel,
    (balanced_iff_of_reachable hr (by decide +kernel)).1.mpr (by decide +kernel), by decide +kernel⟩

/-- The tunnel is cancelled while the user is there: the session reports no end, and the three bytes
are not counted. -/
theorem unbalanced_when_cut_off : ∃ t, Reachable .standard t ∧
    (∀ s ∈ t.ledger.sessions, s.phase = .ended) ∧ ¬Balanced t ∧ t.ledger.total .a = 0 ∧
      t.counter .a default = 3 ∧
      t.ledger.reports = [.sessionEvent default "open" (.ofList [("peer", "user")])] := by
  have hr := (@Reachable.start .standard).plays
    (letterOfThree ++ [.run .cancelled, .dropped default]) (by decide +kernel)
  refine ⟨_, hr, by decide +kernel, fun hb => ?_, by decide +kernel, by decide +kernel,
    by decide +kernel⟩
  exact absurd (hb.total .a) (by decide +kernel)

end Traffic
end SshTunnels
