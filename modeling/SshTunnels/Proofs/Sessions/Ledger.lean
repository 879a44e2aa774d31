import Mathlib.Algebra.GroupWithZero.Nat
import Mathlib.Data.List.Nodup
import SshTunnels.Relay
import SshTunnels.Sessions

/-!
# The ledger of sessions

What one event does to the sessions of a tunnel: it turns one session from one phase to the next,
adds the reports of that session and counts its bytes, or it does nothing (`step_cases`). So all
that has to be followed is one session, and sums over all sessions change by what that one changes
(`sum_put`).
-/

namespace SshTunnels

namespace LifecycleReport

/-- The session that a report is about. -/
def session? : LifecycleReport → Option Uuid
  | .sessionEvent id _ _ | .sessionError id _ => some id
  | _ => none

end LifecycleReport

namespace SessionEvent

/-- The bytes that an event relays from either side: users are side A. -/
def moved : SessionEvent → Side → Nat
  | .relayed rcvd _, .a => rcvd
  | .relayed _ sent, .b => sent
  | _, _ => 0

/-- The session is dropped. -/
def isDrop : SessionEvent → Bool
  | .dropped => true
  | _ => false

end SessionEvent

namespace SessionPhase

/-- The bytes that a session has relayed so far from either side. -/
def relayed : SessionPhase → Side → Nat
  | .relaying rcvd _, .a => rcvd
  | .relaying _ sent, .b => sent
  | _, _ => 0

end SessionPhase

namespace UserSession

/-- The report of a session that opens. -/
def opening (s : UserSession) : LifecycleReport :=
  .sessionEvent s.id "open" (.ofList [("peer", s.peer)])

/-- The session does its work: it dials or relays. -/
def isOpen (s : UserSession) : Bool :=
  match s.phase with
  | .dialing | .relaying .. => true
  | .accepted | .ended => false

/-- What an event makes of a session: its next phase, its reports, and the bytes from either side
that are counted. -/
inductive Turn (s : UserSession) :
    SessionEvent → SessionPhase → List LifecycleReport → (Side → Nat) → Prop where
  | begins : s.phase = .accepted → Turn s .begin .dialing [s.opening] fun _ => 0
  | leaves : s.phase = .accepted → Turn s .dropped .ended [] fun _ => 0
  | dialed : s.phase = .dialing → Turn s .dialed (.relaying 0 0) [] fun _ => 0
  | dialFailed (e : TunnelError) :
      s.phase = .dialing → Turn s (.dialFailed e) .ended [.sessionError s.id e] fun _ => 0
  | relayed {rcvd sent : Nat} (r t : Nat) : s.phase = .relaying rcvd sent →
      Turn s (.relayed r t) (.relaying (rcvd + r) (sent + t)) [] fun _ => 0
  | closes {rcvd sent : Nat} (fault : Option SshError) : s.phase = .relaying rcvd sent →
      Turn s (.relayEnded fault) .ended (SessionLedger.closing s.id rcvd sent fault)
        s.phase.relayed
  | cut : s.isOpen = true → Turn s .dropped .ended [] fun _ => 0

end UserSession

namespace SessionLedger

variable {l : SessionLedger} {id : Uuid} {event : SessionEvent} {s : UserSession}
  {phase : SessionPhase} {new : List LifecycleReport} {n : Side → Nat}

/-- The reports about a session, in order. -/
def reportsOf (l : SessionLedger) (id : Uuid) : List LifecycleReport :=
  l.reports.filter (·.session? == some id)

/-- The bytes from a side that have been counted: those from users count as received. -/
def total (l : SessionLedger) : Side → Nat
  | .a => l.rcvd
  | .b => l.sent

/-- No two sessions have the same identifier. -/
def Distinct (l : SessionLedger) : Prop :=
  (l.sessions.map (·.id)).Nodup

theorem mem_of_session? (h : l.session? id = some s) : s ∈ l.sessions ∧ s.id = id := by
  refine ⟨List.mem_of_find?_eq_some h, ?_⟩
  rw [session?] at h
  have hid := List.find?_some h
  exact beq_iff_eq.mp hid

theorem session?_eq_none_iff : l.session? id = none ↔ ∀ s ∈ l.sessions, s.id ≠ id := by
  rw [session?, List.find?_eq_none]
  exact forall₂_congr fun s _ => not_congr beq_iff_eq

theorem distinct_accept (hl : l.Distinct) (hid : l.session? id = none) (peer : String) :
    (l.accept id peer).Distinct := by
  rw [Distinct, accept, List.map_append]
  refine List.nodup_append.mpr ⟨hl, List.nodup_singleton _, ?_⟩
  intro a ha b hb
  obtain ⟨s, hs, rfl⟩ := List.mem_map.mp ha
  rw [List.mem_singleton.mp hb]
  exact session?_eq_none_iff.mp hid s hs

theorem eq_of_id_eq (hl : l.Distinct) {s' : UserSession} (hs : s ∈ l.sessions)
    (hs' : s' ∈ l.sessions) (hid : s'.id = s.id) : s' = s :=
  List.inj_on_of_nodup_map hl hs' hs hid

/-! ## One event -/

/-- The ledger in which a session has turned. -/
structure Turned (l l' : SessionLedger) (id : Uuid) (phase : SessionPhase)
    (new : List LifecycleReport) (n : Side → Nat) : Prop where
  sessions : l'.sessions = (l.put id phase).sessions
  reports : l'.reports = l.reports ++ new
  total : ∀ side, l'.total side = l.total side + n side

/-- An event that turns a session turns the ledger. -/
theorem turned_step (hs : l.session? id = some s) (ht : s.Turn event phase new n) :
    Turned l (l.step id event) id phase new n := by
  obtain ⟨-, rfl⟩ := mem_of_session? hs
  cases ht with
  | begins hp | dialFailed _ hp =>
    simp only [step, hs, hp]
    exact ⟨rfl, rfl, fun side => by cases side <;> rfl⟩
  | closes _ hp =>
    simp only [step, hs, hp]
    exact ⟨rfl, rfl, fun side => by cases side <;> rfl⟩
  | leaves hp | dialed hp | relayed _ _ hp =>
    simp only [step, hs, hp]
    exact ⟨rfl, (List.append_nil _).symm, fun side => by cases side <;> rfl⟩
  | cut hopen =>
    cases hp : s.phase with
    | accepted | ended =>
      rw [UserSession.isOpen, hp] at hopen
      cases hopen
    | dialing | relaying _ _ =>
      simp only [step, hs, hp]
      exact ⟨rfl, (List.append_nil _).symm, fun side => by cases side <;> rfl⟩

/-- An event does nothing, or turns its session. -/
theorem step_cases (l : SessionLedger) (id : Uuid) (event : SessionEvent) : l.step id event = l ∨
    ∃ s phase new n, l.session? id = some s ∧ s.Turn event phase new n := by
  cases hs : l.session? id with
  | none => exact .inl (by simp only [step, hs])
  | some s =>
    cases hp : s.phase with
    | accepted =>
      cases event with
      | begin => exact .inr ⟨s, _, _, _, rfl, .begins hp⟩
      | dropped => exact .inr ⟨s, _, _, _, rfl, .leaves hp⟩
      | _ => exact .inl (by simp only [step, hs, hp])
    | dialing =>
      cases event with
      | dialed => exact .inr ⟨s, _, _, _, rfl, .dialed hp⟩
      | dialFailed e => exact .inr ⟨s, _, _, _, rfl, .dialFailed e hp⟩
      | dropped => exact .inr ⟨s, _, _, _, rfl, .cut (by rw [UserSession.isOpen, hp])⟩
      | _ => exact .inl (by simp only [step, hs, hp])
    | relaying rcvd sent =>
      cases event with
      | relayed r t => exact .inr ⟨s, _, _, _, rfl, .relayed r t hp⟩
      | relayEnded fault => exact .inr ⟨s, _, _, _, rfl, .closes fault hp⟩
      | dropped => exact .inr ⟨s, _, _, _, rfl, .cut (by rw [UserSession.isOpen, hp])⟩
      | _ => exact .inl (by simp only [step, hs, hp])
    | ended => exact .inl (by simp only [step, hs, hp])

/-! ## One session among the others -/

theorem mem_put {s' : UserSession} : s' ∈ (l.put id phase).sessions ↔
    (s' ∈ l.sessions ∧ s'.id ≠ id) ∨ ∃ s ∈ l.sessions, s.id = id ∧ s' = { s with phase } := by
  rw [put, List.mem_map]
  constructor
  · rintro ⟨s, hs, rfl⟩
    by_cases hid : s.id = id
    · exact .inr ⟨s, hs, hid, if_pos (beq_iff_eq.mpr hid)⟩
    · rw [if_neg (mt beq_iff_eq.mp hid)]
      exact .inl ⟨hs, hid⟩
  · rintro (⟨hs, hid⟩ | ⟨s, hs, hid, rfl⟩)
    · exact ⟨s', hs, if_neg (mt beq_iff_eq.mp hid)⟩
    · exact ⟨s, hs, if_pos (beq_iff_eq.mpr hid)⟩

theorem ids_put (l : SessionLedger) (id : Uuid) (phase : SessionPhase) :
    (l.put id phase).sessions.map (·.id) = l.sessions.map (·.id) := by
  rw [put, List.map_map]
  refine List.map_congr_left fun s _ => ?_
  simp only [Function.comp_apply]
  split <;> rfl

theorem Turned.distinct {l' : SessionLedger} (h : Turned l l' id phase new n)
    (hl : l.Distinct) : l'.Distinct := by
  rw [Distinct, h.sessions, ids_put]
  exact hl

theorem reportsOf_append {l' : SessionLedger} (h : l'.reports = l.reports ++ new) (id : Uuid) :
    l'.reportsOf id = l.reportsOf id ++ new.filter (·.session? == some id) := by
  rw [reportsOf, h, List.filter_append]
  rfl

/-- The reports of a session that turns are about that session. -/
theorem session?_of_turn (h : s.Turn event phase new n) {r : LifecycleReport} (hr : r ∈ new) :
    r.session? = some s.id := by
  cases h with
  | begins _ => rw [List.mem_singleton.mp hr]; rfl
  | dialFailed e _ => rw [List.mem_singleton.mp hr]; rfl
  | closes fault _ =>
    rcases List.mem_append.mp hr with hr | hr
    · obtain ⟨e, -, rfl⟩ := Option.map_eq_some_iff.mp (Option.mem_toList.mp hr)
      rfl
    · rw [List.mem_singleton.mp hr]; rfl
  | _ => cases hr

theorem reportsOf_turn_self {l' : SessionLedger} (ht : s.Turn event phase new n)
    (h : Turned l l' s.id phase new n) : l'.reportsOf s.id = l.reportsOf s.id ++ new := by
  rw [reportsOf_append h.reports, List.filter_eq_self.mpr]
  exact fun r hr => beq_iff_eq.mpr (session?_of_turn ht hr)

theorem reportsOf_turn_ne {l' : SessionLedger} (ht : s.Turn event phase new n)
    (h : Turned l l' s.id phase new n) (hid : id ≠ s.id) :
    l'.reportsOf id = l.reportsOf id := by
  rw [reportsOf_append h.reports, List.filter_eq_nil_iff.mpr, List.append_nil]
  intro r hr heq
  rw [beq_iff_eq, session?_of_turn ht hr, Option.some.injEq] at heq
  exact hid heq.symm

/-- Turning one session changes a sum over all sessions by what changes at that one. -/
theorem sum_put (phase : SessionPhase) (hl : l.Distinct) (hs : s ∈ l.sessions)
    {f g : UserSession → Nat}
    (hother : ∀ s' ∈ l.sessions, s'.id ≠ s.id → g s' = f s') :
    ((l.put s.id phase).sessions.map g).sum + f s =
      (l.sessions.map f).sum + g { s with phase } := by
  rw [Distinct] at hl
  rw [put, List.map_map]
  generalize l.sessions = sessions at hl hs hother
  induction sessions with
  | nil => cases hs
  | cons a rest ih =>
    obtain ⟨ha, hrest⟩ := List.nodup_cons.mp hl
    simp only [List.map_cons, List.sum_cons, Function.comp_apply]
    by_cases hid : a.id = s.id
    · have hsame : ∀ s' ∈ rest, s'.id ≠ s.id := fun s' hs' heq =>
        ha (List.mem_map.mpr ⟨s', hs', heq.trans hid.symm⟩)
      obtain rfl : s = a := by
        rcases List.mem_cons.mp hs with hs | hs
        · exact hs
        · exact absurd rfl (hsame s hs)
      have hmap : rest.map (g ∘ fun s' => if s'.id == s.id then { s' with phase } else s') =
          rest.map f := by
        refine List.map_congr_left fun s' hs' => ?_
        rw [Function.comp_apply, if_neg (mt beq_iff_eq.mp (hsame s' hs'))]
        exact hother s' (List.mem_cons_of_mem _ hs') (hsame s' hs')
      rw [if_pos (beq_self_eq_true s.id), hmap]
      omega
    · have hmem : s ∈ rest := by
        rcases List.mem_cons.mp hs with rfl | hs
        · exact absurd rfl hid
        · exact hs
      have hih := ih hrest hmem fun s' hs' => hother s' (List.mem_cons_of_mem _ hs')
      rw [if_neg (mt beq_iff_eq.mp hid), hother a List.mem_cons_self hid]
      omega

end SessionLedger
end SshTunnels
