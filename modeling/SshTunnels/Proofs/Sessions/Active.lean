import Mathlib.Data.Finset.Card
import Mathlib.Logic.Function.Basic
import SshTunnels.Proofs.Sessions.Ledger

/-!
# Active sessions

The work of each session is a task of its own. A task is polled for the first time at some moment or
never; it waits for its dial and for its relay; and it is gone once it has returned, panicked or
been dropped, which can happen where it waits and before it was ever polled. What a task does
between two points where it waits takes several moments, and at each of them another task can come
in between. If none does, that is what the ledger does in one step (`Run.exists_step`).

`active_of_run`: at every moment of every run the number of active sessions is the number of tasks
that have been polled and are not gone. What carries it is that a task is polled and not gone
exactly while its session is open (`Tallies`).
-/

namespace SshTunnels

/-- One thing that a task does. -/
inductive SessionAct where
  | report (report : LifecycleReport)
  | countReceived (n : Nat)
  | countSent (n : Nat)
  deriving DecidableEq, Repr

/-- What a task does before it waits again, or returns. -/
structure SessionTurn where
  acts : List SessionAct := []
  returns : Bool := false
  deriving DecidableEq, Repr

/-- The sessions of a tunnel, with the turn of each task. -/
structure SessionTasks where
  ledger : SessionLedger := {}
  turn : Uuid → SessionTurn := fun _ => {}

/-- What happens at a moment: a user is accepted, or one task goes on. -/
inductive TaskEvent where
  | accepted (id : Uuid) (peer : String)
  | polled (id : Uuid)
  | acts (id : Uuid)
  | dialed (id : Uuid)
  | dialFailed (id : Uuid) (error : TunnelError)
  | relayed (id : Uuid) (rcvd sent : Nat)
  | relayEnded (id : Uuid) (fault : Option SshError)
  | returned (id : Uuid)
  | panicked (id : Uuid)
  | dropped (id : Uuid)
  deriving DecidableEq, Repr

namespace SessionPhase

/-- The session does its work: it dials or relays. -/
def isOpen : SessionPhase → Bool
  | .dialing | .relaying .. => true
  | .accepted | .ended => false

end SessionPhase

namespace SessionLedger

variable {l : SessionLedger} {id : Uuid} {phase : SessionPhase}

/-- Where the session of an identifier stands. -/
def phase? (l : SessionLedger) (id : Uuid) : Option SessionPhase :=
  (l.session? id).map (·.phase)

/-- The session of an identifier does its work. -/
def isOpen (l : SessionLedger) (id : Uuid) : Bool :=
  (l.phase? id).any (·.isOpen)

/-- What an act of a task adds to the ledger. -/
def act (l : SessionLedger) : SessionAct → SessionLedger
  | .report r => l.report [r]
  | .countReceived n => { l with rcvd := l.rcvd + n }
  | .countSent n => { l with sent := l.sent + n }

/-- The ledger after a whole turn of a task. -/
def takeTurn (l : SessionLedger) (id : Uuid) (turn : SessionTurn) : SessionLedger :=
  let l := turn.acts.foldl act l
  if turn.returns then l.finish id else l

theorem active_act (l : SessionLedger) (a : SessionAct) : (l.act a).active = l.active := by
  cases a <;> rfl

theorem phase?_act (l : SessionLedger) (a : SessionAct) (id : Uuid) :
    (l.act a).phase? id = l.phase? id := by
  cases a <;> rfl

theorem foldl_report (l : SessionLedger) (rs : List LifecycleReport) :
    (rs.map SessionAct.report).foldl act l = l.report rs := by
  induction rs generalizing l with
  | nil => rw [report, List.append_nil]; rfl
  | cons r rs ih =>
    rw [List.map_cons, List.foldl_cons, ih, act, report, report, report, List.append_assoc]
    rfl

theorem phase?_put (l : SessionLedger) (id : Uuid) (phase : SessionPhase) (id' : Uuid) :
    (l.put id phase).phase? id' =
      if id' = id then (l.phase? id').map fun _ => phase else l.phase? id' := by
  have hids : ((·.id == id') ∘ fun s : UserSession => if s.id == id then { s with phase } else s) =
      (·.id == id') := by
    funext s
    rw [Function.comp_apply]
    split <;> rfl
  rw [phase?, session?, put, List.find?_map, hids, ← session?, Option.map_map, phase?]
  cases hs : l.session? id' with
  | none => simp
  | some s =>
    obtain ⟨-, rfl⟩ := mem_of_session? hs
    by_cases hid : s.id = id
    · simp [hid]
    · simp [hid]

theorem phase?_accept (h : l.phase? id = none) (peer : String) (id' : Uuid) :
    (l.accept id peer).phase? id' = if id' = id then some .accepted else l.phase? id' := by
  rw [phase?, session?, accept, List.find?_append, ← session?, phase?]
  split
  · next hid =>
    subst hid
    rw [Option.map_eq_none_iff.mp h]
    simp
  · next hid =>
    rw [List.find?_singleton, if_neg (mt beq_iff_eq.mp (Ne.symm hid)), Option.or_none]

theorem exists_phase?_of_isOpen (h : l.isOpen id = true) :
    ∃ phase, l.phase? id = some phase ∧ phase.isOpen = true := by
  rw [isOpen, Option.any_eq_true] at h
  exact h

theorem isOpen_of_phase? (h : l.phase? id = some phase) : l.isOpen id = phase.isOpen := by
  rw [isOpen, h]
  rfl

theorem exists_phase?_of_isRelaying (h : l.isRelaying id = true) :
    ∃ rcvd sent, l.phase? id = some (.relaying rcvd sent) := by
  rw [isRelaying, Option.any_eq_true] at h
  obtain ⟨s, hs, hrelaying⟩ := h
  rw [phase?, hs]
  cases hp : s.phase with
  | relaying rcvd sent => exact ⟨rcvd, sent, congrArg some hp⟩
  | _ =>
    rw [hp] at hrelaying
    cases hrelaying

theorem step_dialed (h : l.phase? id = some .dialing) :
    l.step id .dialed = l.put id (.relaying 0 0) := by
  obtain ⟨s, hs, hp⟩ := Option.map_eq_some_iff.mp h
  simp only [step, hs, hp]

theorem step_relayed {rcvd sent : Nat} (h : l.phase? id = some (.relaying rcvd sent)) (r t : Nat) :
    l.step id (.relayed r t) = l.put id (.relaying (rcvd + r) (sent + t)) := by
  obtain ⟨s, hs, hp⟩ := Option.map_eq_some_iff.mp h
  simp only [step, hs, hp]

theorem step_dropped_of_accepted (h : l.phase? id = some .accepted) :
    l.step id .dropped = l.put id .ended := by
  obtain ⟨s, hs, hp⟩ := Option.map_eq_some_iff.mp h
  simp only [step, hs, hp]

theorem step_dropped_of_isOpen (h : l.isOpen id = true) : l.step id .dropped = l.finish id := by
  obtain ⟨phase, hphase, hopen⟩ := exists_phase?_of_isOpen h
  obtain ⟨s, hs, rfl⟩ := Option.map_eq_some_iff.mp hphase
  cases hp : s.phase with
  | dialing | relaying _ _ => simp only [step, hs, hp]
  | accepted | ended =>
    rw [hp] at hopen
    cases hopen

end SessionLedger

namespace SessionTasks

variable {t t' : SessionTasks} {h h' : List TaskEvent} {id : Uuid} {event : TaskEvent}

/-- The task of a session waits. -/
def Waits (t : SessionTasks) (id : Uuid) : Prop :=
  t.turn id = {}

instance (t : SessionTasks) (id : Uuid) : Decidable (t.Waits id) :=
  inferInstanceAs (Decidable (_ = _))

/-- What can happen: a task is polled for the first time once; then it goes on by its turns until it
returns. It is dropped before it was polled or where it waits, but can panic anywhere. -/
def Possible (t : SessionTasks) : TaskEvent → Prop
  | .accepted id _ => t.ledger.phase? id = none
  | .polled id => t.ledger.phase? id = some .accepted
  | .acts id => (t.turn id).acts ≠ []
  | .dialed id | .dialFailed id _ => t.ledger.phase? id = some .dialing ∧ t.Waits id
  | .relayed id _ _ | .relayEnded id _ => t.ledger.isRelaying id = true ∧ t.Waits id
  | .returned id => t.ledger.isOpen id = true ∧ t.turn id = ⟨[], true⟩
  | .panicked id => t.ledger.isOpen id = true
  | .dropped id =>
    t.ledger.phase? id = some .accepted ∨ t.ledger.isOpen id = true ∧ t.Waits id

instance (t : SessionTasks) : (event : TaskEvent) → Decidable (t.Possible event)
  | .accepted _ _ | .polled _ => inferInstanceAs (Decidable (_ = _))
  | .acts _ => inferInstanceAs (Decidable (_ ≠ _))
  | .dialed _ | .dialFailed _ _ => inferInstanceAs (Decidable (_ = _ ∧ _))
  | .relayed _ _ _ | .relayEnded _ _ => inferInstanceAs (Decidable (_ = _ ∧ _))
  | .returned _ => inferInstanceAs (Decidable (_ = _ ∧ _ = _))
  | .panicked _ => inferInstanceAs (Decidable (_ = _))
  | .dropped _ => inferInstanceAs (Decidable (_ ∨ _ = _ ∧ _))

/-- Gives a task a turn. -/
def give (t : SessionTasks) (id : Uuid) (turn : SessionTurn) : SessionTasks :=
  { t with turn := Function.update t.turn id turn }

/-- What an event makes of the tasks. -/
def step (t : SessionTasks) : TaskEvent → SessionTasks
  | .accepted id peer => { t with ledger := t.ledger.accept id peer }
  | .polled id =>
    match t.ledger.session? id with
    | none => t
    | some s =>
      { t with ledger := { t.ledger.put id .dialing with active := t.ledger.active + 1 } }.give id
        ⟨[.report s.opening], false⟩
  | .acts id =>
    match t.turn id with
    | ⟨[], _⟩ => t
    | ⟨act :: acts, returns⟩ => { t with ledger := t.ledger.act act }.give id ⟨acts, returns⟩
  | .dialed id => { t with ledger := t.ledger.step id .dialed }
  | .dialFailed id e => t.give id ⟨[.report (.sessionError id e)], true⟩
  | .relayed id rcvd sent => { t with ledger := t.ledger.step id (.relayed rcvd sent) }
  | .relayEnded id fault =>
    match t.ledger.phase? id with
    | some (.relaying rcvd sent) =>
      t.give id ⟨.countReceived rcvd :: .countSent sent ::
        (SessionLedger.closing id rcvd sent fault).map .report, true⟩
    | _ => t
  | .returned id | .panicked id => { t with ledger := t.ledger.finish id }.give id {}
  | .dropped id => { t with ledger := t.ledger.step id .dropped }

theorem step_acts {act : SessionAct} {acts : List SessionAct} {returns : Bool}
    (hturn : t.turn id = ⟨act :: acts, returns⟩) :
    t.step (.acts id) = { t with ledger := t.ledger.act act }.give id ⟨acts, returns⟩ := by
  simp only [step, hturn]

/-- The runs of any number of tasks, with what has happened, the latest first. -/
inductive Run : List TaskEvent → SessionTasks → Prop where
  | start : Run [] {}
  | next {h : List TaskEvent} {t : SessionTasks} (event : TaskEvent) : Run h t →
      t.Possible event → Run (event :: h) (t.step event)

/-- The tasks that have been polled. -/
def begun : List TaskEvent → Finset Uuid
  | [] => ∅
  | .polled id :: h => insert id (begun h)
  | _ :: h => begun h

/-- The tasks that have finished, by returning or by a panic, or been dropped. -/
def gone : List TaskEvent → Finset Uuid
  | [] => ∅
  | .returned id :: h | .panicked id :: h | .dropped id :: h => insert id (gone h)
  | _ :: h => gone h

/-! ## One event -/

/-- The number of active sessions is right; a task that has not been polled is not gone either, and
the task of an open session has been polled and is not gone. -/
structure Tallies (h : List TaskEvent) (t : SessionTasks) : Prop where
  active : t.ledger.active = (begun h \ gone h).card
  waiting : ∀ id, t.ledger.phase? id = none ∨ t.ledger.phase? id = some .accepted →
    id ∉ begun h ∧ id ∉ gone h
  working : ∀ id, t.ledger.isOpen id = true → id ∈ begun h \ gone h

theorem Tallies.start : Tallies [] {} where
  active := rfl
  waiting := fun _ _ => ⟨Finset.notMem_empty _, Finset.notMem_empty _⟩
  working := nofun

/-- An event by which no task is polled or ends. -/
theorem Tallies.quiet (ht : Tallies h t) (hbegun : begun (event :: h) = begun h)
    (hgone : gone (event :: h) = gone h) (hactive : t'.ledger.active = t.ledger.active)
    (hwaiting : ∀ id, t'.ledger.phase? id = none ∨ t'.ledger.phase? id = some .accepted →
      t.ledger.phase? id = none ∨ t.ledger.phase? id = some .accepted)
    (hworking : ∀ id, t'.ledger.isOpen id = true → t.ledger.isOpen id = true) :
    Tallies (event :: h) t' := by
  constructor
  · rw [hactive, hbegun, hgone, ht.active]
  · rw [hbegun, hgone]
    exact fun id hid => ht.waiting id (hwaiting id hid)
  · rw [hbegun, hgone]
    exact fun id hid => ht.working id (hworking id hid)

theorem Tallies.accepted (ht : Tallies h t) (hid : t.ledger.phase? id = none) (peer : String) :
    Tallies (.accepted id peer :: h) (t.step (.accepted id peer)) := by
  have hphase := SessionLedger.phase?_accept hid peer
  refine ht.quiet rfl rfl rfl (fun id' h => ?_) fun id' h => ?_
  · simp only [step, hphase] at h
    split at h
    · next heq => exact .inl (heq ▸ hid)
    · exact h
  · simp only [step, SessionLedger.isOpen, hphase] at h
    split at h
    · cases h
    · exact h

/-- An open session goes on. -/
theorem Tallies.goesOn {phase phase' : SessionPhase} (ht : Tallies h t)
    (hbegun : begun (event :: h) = begun h) (hgone : gone (event :: h) = gone h)
    (hid : t.ledger.phase? id = some phase) (hopen : phase.isOpen = true)
    (hopen' : phase'.isOpen = true) (hledger : t'.ledger = t.ledger.put id phase') :
    Tallies (event :: h) t' := by
  refine ht.quiet hbegun hgone (by rw [hledger]; rfl) (fun id' h => ?_) fun id' h => ?_
  · rw [hledger, SessionLedger.phase?_put] at h
    split at h
    · next heq =>
      rw [heq, hid] at h
      rcases h with h | h
      · cases h
      · cases h
        cases hopen'
    · exact h
  · rw [SessionLedger.isOpen, hledger, SessionLedger.phase?_put] at h
    split at h
    · next heq => rwa [heq, SessionLedger.isOpen_of_phase? hid]
    · exact h

theorem Tallies.polled (ht : Tallies h t) (hid : t.ledger.phase? id = some .accepted) :
    Tallies (.polled id :: h) (t.step (.polled id)) := by
  obtain ⟨hbegun, hgone⟩ := ht.waiting id (.inr hid)
  obtain ⟨s, hs, -⟩ := Option.map_eq_some_iff.mp hid
  have hledger : (t.step (.polled id)).ledger =
      { t.ledger.put id .dialing with active := t.ledger.active + 1 } := by
    simp only [step, hs]
    rfl
  have hphase (id' : Uuid) : (t.step (.polled id)).ledger.phase? id' =
      if id' = id then some .dialing else t.ledger.phase? id' := by
    have hput := SessionLedger.phase?_put t.ledger id .dialing id'
    rw [hledger]
    refine hput.trans (ite_congr rfl (fun heq => ?_) fun _ => rfl)
    rw [heq, hid]
    rfl
  have hbegun' : begun (.polled id :: h) = insert id (begun h) := rfl
  have hgone' : gone (.polled id :: h) = gone h := rfl
  constructor
  · rw [hledger, hbegun', hgone', Finset.insert_sdiff_of_notMem _ hgone,
      Finset.card_insert_of_notMem fun h => hbegun (Finset.mem_sdiff.mp h).1]
    simp only [ht.active]
    omega
  · intro id' hid'
    rw [hphase] at hid'
    split at hid'
    · rcases hid' with h | h <;> cases h
    · next hne =>
      rw [hbegun', hgone', Finset.mem_insert, not_or]
      exact ⟨⟨hne, (ht.waiting id' hid').1⟩, (ht.waiting id' hid').2⟩
  · intro id' hid'
    rw [SessionLedger.isOpen, hphase] at hid'
    rw [hbegun', hgone', Finset.mem_sdiff, Finset.mem_insert]
    split at hid'
    · next heq => exact ⟨.inl heq, heq ▸ hgone⟩
    · obtain ⟨hmem, hnot⟩ := Finset.mem_sdiff.mp (ht.working id' hid')
      exact ⟨.inr hmem, hnot⟩

/-- A task is gone, and its session has ended. -/
theorem Tallies.ends (ht : Tallies h t) (hid : t.ledger.phase? id ≠ none)
    (hbegun : begun (event :: h) = begun h) (hgone : gone (event :: h) = insert id (gone h))
    (hphase : ∀ id', t'.ledger.phase? id' = (t.ledger.put id .ended).phase? id')
    (hactive : t'.ledger.active = ((begun h \ gone h).erase id).card) :
    Tallies (event :: h) t' := by
  constructor
  · rw [hactive, hbegun, hgone, Finset.sdiff_insert]
  · intro id' hid'
    rw [hphase, SessionLedger.phase?_put] at hid'
    rw [hbegun, hgone, Finset.mem_insert]
    split at hid'
    · next heq =>
      subst heq
      cases hp : t.ledger.phase? id' with
      | none => exact absurd hp hid
      | some phase =>
        rw [hp] at hid'
        rcases hid' with h | h <;> cases h
    · next hne =>
      obtain ⟨hbegun', hgone'⟩ := ht.waiting id' hid'
      exact ⟨hbegun', not_or.mpr ⟨hne, hgone'⟩⟩
  · intro id' hid'
    rw [SessionLedger.isOpen, hphase, SessionLedger.phase?_put] at hid'
    rw [hbegun, hgone, Finset.sdiff_insert, Finset.mem_erase]
    split at hid'
    · cases hp : t.ledger.phase? id' with
      | none =>
        rw [hp] at hid'
        cases hid'
      | some phase =>
        rw [hp] at hid'
        cases hid'
    · next hne => exact ⟨hne, ht.working id' hid'⟩

theorem Tallies.finishes (ht : Tallies h t) (hid : t.ledger.isOpen id = true)
    (hbegun : begun (event :: h) = begun h) (hgone : gone (event :: h) = insert id (gone h))
    (hledger : t'.ledger = t.ledger.finish id) : Tallies (event :: h) t' := by
  have hmem := ht.working id hid
  have hpos : 0 < (begun h \ gone h).card := Finset.card_pos.mpr ⟨id, hmem⟩
  obtain ⟨phase, hphase, -⟩ := SessionLedger.exists_phase?_of_isOpen hid
  refine ht.ends (hphase ▸ Option.some_ne_none phase) hbegun hgone
    (fun _ => by rw [hledger]; rfl) ?_
  rw [hledger, SessionLedger.finish, Finset.card_erase_of_mem hmem]
  simp only [ht.active]
  omega

theorem Tallies.leaves (ht : Tallies h t) (hid : t.ledger.phase? id = some .accepted) :
    Tallies (.dropped id :: h) (t.step (.dropped id)) := by
  have hstep := SessionLedger.step_dropped_of_accepted hid
  have hnot : id ∉ begun h \ gone h := fun hmem =>
    (ht.waiting id (.inr hid)).1 (Finset.mem_sdiff.mp hmem).1
  refine ht.ends (hid ▸ Option.some_ne_none _) rfl rfl (fun _ => by rw [step, hstep]) ?_
  rw [step, hstep, Finset.erase_eq_of_notMem hnot, ← ht.active]
  rfl

/-- What one event preserves. -/
theorem Tallies.next (ht : Tallies h t) (hp : t.Possible event) :
    Tallies (event :: h) (t.step event) := by
  cases event with
  | accepted id peer => exact ht.accepted hp peer
  | polled id => exact ht.polled hp
  | acts id =>
    obtain ⟨act, acts, hacts⟩ := List.exists_cons_of_ne_nil hp
    obtain ⟨returns, hturn⟩ : ∃ returns, t.turn id = ⟨act :: acts, returns⟩ :=
      ⟨(t.turn id).returns, by rw [← hacts]⟩
    rw [step_acts hturn]
    refine ht.quiet rfl rfl (t.ledger.active_act act) (fun id' h => ?_) fun id' h => ?_
    · rwa [give, SessionLedger.phase?_act] at h
    · rwa [give, SessionLedger.isOpen, SessionLedger.phase?_act] at h
  | dialed id => exact ht.goesOn rfl rfl hp.1 rfl rfl (SessionLedger.step_dialed hp.1)
  | dialFailed id e => exact ht.quiet rfl rfl rfl (fun _ h => h) fun _ h => h
  | relayed id rcvd sent =>
    obtain ⟨rcvd', sent', hphase⟩ := SessionLedger.exists_phase?_of_isRelaying hp.1
    exact ht.goesOn rfl rfl hphase rfl rfl (SessionLedger.step_relayed hphase rcvd sent)
  | relayEnded id fault =>
    obtain ⟨rcvd, sent, hphase⟩ := SessionLedger.exists_phase?_of_isRelaying hp.1
    have hledger : (t.step (.relayEnded id fault)).ledger = t.ledger := by
      simp only [step, hphase]
      rfl
    exact ht.quiet rfl rfl (by rw [hledger]) (fun _ h => hledger ▸ h) fun _ h => hledger ▸ h
  | returned id => exact ht.finishes hp.1 rfl rfl rfl
  | panicked id => exact ht.finishes hp rfl rfl rfl
  | dropped id =>
    rcases hp with hid | ⟨hid, -⟩
    · exact ht.leaves hid
    · exact ht.finishes hid rfl rfl (SessionLedger.step_dropped_of_isOpen hid)

/-! ## Runs -/

theorem Run.tallies (hr : Run h t) : Tallies h t := by
  induction hr with
  | start => exact .start
  | next event _ hp ih => exact ih.next hp

/-! ## Turns without a break -/

/-- A task can do its turn without a break. -/
theorem Run.exists_takeTurn (hr : Run h t) (hid : t.ledger.isOpen id = true) :
    ∃ h', Run h' ({ t with ledger := t.ledger.takeTurn id (t.turn id) }.give id {}) := by
  obtain ⟨acts, returns, hturn⟩ : ∃ acts returns, t.turn id = ⟨acts, returns⟩ := ⟨_, _, rfl⟩
  induction acts generalizing h t with
  | nil =>
    rw [hturn]
    cases returns with
    | false =>
      have heq : t.give id {} = t := by
        rw [give, ← hturn, Function.update_eq_self]
      exact ⟨h, heq.symm ▸ hr⟩
    | true => exact ⟨_, hr.next (.returned id) ⟨hid, hturn⟩⟩
  | cons act acts ih =>
    have hp : t.Possible (.acts id) := by
      rw [Possible, hturn]
      exact List.cons_ne_nil act acts
    have hnext := hr.next _ hp
    rw [step_acts hturn] at hnext
    have hopen : (t.ledger.act act).isOpen id = true := by
      rw [SessionLedger.isOpen, SessionLedger.phase?_act]
      exact hid
    have hrest : Function.update t.turn id ⟨acts, returns⟩ id = ⟨acts, returns⟩ :=
      Function.update_self ..
    obtain ⟨h', hrun⟩ := ih hnext hopen hrest
    refine ⟨h', ?_⟩
    simp only [give, hrest, Function.update_idem] at hrun
    rw [hturn]
    exact hrun

/-- A task that waits is given a turn and does it without a break. -/
theorem Run.exists_given {l : SessionLedger} {turn : SessionTurn} (hr : Run h t)
    (hw : ∀ id, t.Waits id) (hp : t.Possible event)
    (hstep : t.step event = { t with ledger := l }.give id turn) (hid : l.isOpen id = true) :
    ∃ h' t', Run h' t' ∧ (∀ id, t'.Waits id) ∧ t'.ledger = l.takeTurn id turn := by
  have hnext := hr.next event hp
  rw [hstep] at hnext
  have hturn : Function.update t.turn id turn id = turn := Function.update_self ..
  obtain ⟨h', hrun⟩ := hnext.exists_takeTurn hid
  simp only [give, hturn, Function.update_idem] at hrun
  refine ⟨h', _, hrun, fun id' => ?_, rfl⟩
  change Function.update t.turn id {} id' = {}
  rw [Function.update_apply]
  split
  · rfl
  · exact hw id'

/-- Whatever the ledger does in one step, tasks can do in a run at the end of which all wait. -/
theorem Run.exists_step (hr : Run h t) (hw : ∀ id, t.Waits id) (id : Uuid) (event : SessionEvent) :
    ∃ h' t', Run h' t' ∧ (∀ id, t'.Waits id) ∧ t'.ledger = t.ledger.step id event := by
  rcases t.ledger.step_cases id event with heq | ⟨s, phase, new, n, hs, hturn⟩
  · exact ⟨h, t, hr, hw, heq.symm⟩
  have hphase {phase : SessionPhase} (hp : s.phase = phase) : t.ledger.phase? id = some phase := by
    rw [SessionLedger.phase?, hs, ← hp]
    rfl
  obtain ⟨-, rfl⟩ := SessionLedger.mem_of_session? hs
  cases hturn with
  | begins hp =>
    have hpossible : t.Possible (.polled s.id) := hphase hp
    have hstep : t.step (.polled s.id) = { t with
        ledger := { t.ledger.put s.id .dialing with active := t.ledger.active + 1 } }.give s.id
          ⟨[.report s.opening], false⟩ := by
      simp only [step, hs]
    have hopen : (t.ledger.put s.id .dialing).isOpen s.id = true := by
      rw [SessionLedger.isOpen, SessionLedger.phase?_put, if_pos rfl, hphase hp]
      rfl
    have hledger : t.ledger.step s.id .begin =
        { t.ledger.put s.id .dialing with active := t.ledger.active + 1 }.takeTurn s.id
          ⟨[.report s.opening], false⟩ := by
      simp only [SessionLedger.step, hs, hp]
      rfl
    rw [hledger]
    exact hr.exists_given hw hpossible hstep hopen
  | leaves hp => exact ⟨_, _, hr.next (.dropped s.id) (.inl (hphase hp)), hw, rfl⟩
  | dialed hp => exact ⟨_, _, hr.next (.dialed s.id) ⟨hphase hp, hw s.id⟩, hw, rfl⟩
  | dialFailed e hp =>
    have hpossible : t.Possible (.dialFailed s.id e) := ⟨hphase hp, hw s.id⟩
    have hledger : t.ledger.step s.id (.dialFailed e) =
        t.ledger.takeTurn s.id ⟨[.report (.sessionError s.id e)], true⟩ := by
      simp only [SessionLedger.step, hs, hp]
      rfl
    rw [hledger]
    exact hr.exists_given hw hpossible rfl (SessionLedger.isOpen_of_phase? (hphase hp))
  | relayed r n hp =>
    have hrelaying : t.ledger.isRelaying s.id = true := by
      rw [SessionLedger.isRelaying, hs, Option.any_some, hp]
    exact ⟨_, _, hr.next (.relayed s.id r n) ⟨hrelaying, hw s.id⟩, hw, rfl⟩
  | @closes rcvd sent fault hp =>
    have hrelaying : t.ledger.isRelaying s.id = true := by
      rw [SessionLedger.isRelaying, hs, Option.any_some, hp]
    have hpossible : t.Possible (.relayEnded s.id fault) := ⟨hrelaying, hw s.id⟩
    have hstep : t.step (.relayEnded s.id fault) =
        { t with ledger := t.ledger }.give s.id ⟨.countReceived rcvd :: .countSent sent ::
          (SessionLedger.closing s.id rcvd sent fault).map .report, true⟩ := by
      simp only [step, hphase hp]
    have hledger : t.ledger.step s.id (.relayEnded fault) =
        t.ledger.takeTurn s.id ⟨.countReceived rcvd :: .countSent sent ::
          (SessionLedger.closing s.id rcvd sent fault).map .report, true⟩ := by
      rw [SessionLedger.takeTurn, List.foldl_cons, List.foldl_cons, SessionLedger.foldl_report]
      simp only [SessionLedger.step, hs, hp]
      rfl
    rw [hledger]
    exact hr.exists_given hw hpossible hstep (SessionLedger.isOpen_of_phase? (hphase hp))
  | cut hopen =>
    have hid : t.ledger.isOpen s.id = true := by
      rw [SessionLedger.isOpen_of_phase? (hphase rfl)]
      exact hopen
    exact ⟨_, _, hr.next (.dropped s.id) (.inr ⟨hid, hw s.id⟩), hw, rfl⟩

/-! ## The number of active sessions -/

/-- Each event of a list is possible when its turn comes. -/
def Plays (t : SessionTasks) : List TaskEvent → Prop
  | [] => True
  | event :: events => t.Possible event ∧ (t.step event).Plays events

instance decidablePlays (t : SessionTasks) :
    (events : List TaskEvent) → Decidable (t.Plays events)
  | [] => inferInstanceAs (Decidable True)
  | event :: events =>
    have := decidablePlays (t.step event) events
    inferInstanceAs (Decidable (t.Possible event ∧ (t.step event).Plays events))

theorem Run.plays (hr : Run h t) (events : List TaskEvent) (hp : t.Plays events) :
    Run (events.reverse ++ h) (events.foldl step t) := by
  induction events generalizing h t with
  | nil => exact hr
  | cons event events ih =>
    rw [List.reverse_cons, List.append_assoc, List.singleton_append]
    exact ih (hr.next event hp.1) hp.2

/-- At every moment the number of active sessions is the number of tasks that have been polled and
have neither finished nor been dropped. It is never negative, and zero when none is left. -/
theorem active_of_run (hr : Run h t) : t.ledger.active = (begun h \ gone h).card ∧
    0 ≤ t.ledger.active ∧ (begun h ⊆ gone h → t.ledger.active = 0) := by
  have hactive := hr.tallies.active
  refine ⟨hactive, hactive ▸ Int.natCast_nonneg _, fun hsub => ?_⟩
  rw [hactive, Finset.sdiff_eq_empty_iff_subset.mpr hsub]
  rfl

/-- Six users, each of whom meets with something else: a dial that fails, an end of file, a panic
while the opening is reported, a drop before the first poll and one at the dial, and a relay that
goes on. -/
def sixUsers : List TaskEvent :=
  [.accepted (.ofNat 1) "a", .accepted (.ofNat 2) "b", .polled (.ofNat 2), .polled (.ofNat 1),
    .acts (.ofNat 1), .accepted (.ofNat 3) "c", .dialFailed (.ofNat 1) (.forward "refused"),
    .acts (.ofNat 2), .dialed (.ofNat 2), .polled (.ofNat 3), .accepted (.ofNat 4) "d",
    .accepted (.ofNat 5) "e", .relayed (.ofNat 2) 3 4, .panicked (.ofNat 3), .acts (.ofNat 1),
    .polled (.ofNat 5), .dropped (.ofNat 4), .relayEnded (.ofNat 2) none, .returned (.ofNat 1),
    .acts (.ofNat 2), .accepted (.ofNat 6) "f", .polled (.ofNat 6), .acts (.ofNat 5),
    .acts (.ofNat 6), .dropped (.ofNat 5), .dialed (.ofNat 6), .acts (.ofNat 2)]

/-- The second user's task has yet to report the close, and the last one's relays. -/
theorem active_of_sixUsers : ∃ t, Run sixUsers.reverse t ∧ t.ledger.active = 2 := by
  have hr := Run.start.plays sixUsers (by decide +kernel)
  rw [List.append_nil] at hr
  refine ⟨_, hr, (active_of_run hr).1.trans ?_⟩
  decide +kernel

end SessionTasks
end SshTunnels
