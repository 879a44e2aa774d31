import SshTunnels.CommandLine.Program
import SshTunnels.Proofs.CommandLine.Intervals
import SshTunnels.Proofs.Manager.History

/-!
# The health of a manager

A check looks at the time since the last refresh that got a list, or since the manager was made if
there was none (`Run.clocked`), and compares it with two refresh intervals. Twice an interval of two
to the 63rd seconds or more is too long for a span. The command line takes such an interval, and
then neither a check nor the timer of the checks comes to anything (`health_of_run`).
-/

namespace SshTunnels

namespace ManagerHistory

/-- When a list was taken over last. -/
def refreshedAt? : ManagerHistory → Option Instant
  | [] => none
  | (now, .refreshed _) :: _ => some now
  | _ :: h => refreshedAt? h

theorem refreshedAt?_of_not_refreshed {event : ManagerEvent} (hne : ∀ l, event ≠ .refreshed l)
    (now : Instant) (h : ManagerHistory) : refreshedAt? ((now, event) :: h) = h.refreshedAt? := by
  cases event with
  | refreshed l => exact absurd rfl (hne l)
  | _ => rfl

end ManagerHistory

/-- The shortest interval that is too long to be doubled. -/
def Span.undoubled : Span := .ofSeconds (2 ^ 63)

namespace Manager

/-! ## What a check looks at -/

/-- Two managers have the same options and were made at the same time, and the last refresh of both
was at the same time. -/
structure SameClock (m m' : Manager) : Prop where
  options : m'.options = m.options
  createdAt : m'.createdAt = m.createdAt
  lastRefresh : m'.lastRefresh = m.lastRefresh

variable {m₀ m m' : Manager} {h : ManagerHistory} {acts : List ManagerAct} {now : Instant}
  {event : ManagerEvent}

namespace SameClock

theorem refl (m : Manager) : m.SameClock m := ⟨rfl, rfl, rfl⟩

theorem trans {a b c : Manager} (hab : a.SameClock b) (hbc : b.SameClock c) : a.SameClock c :=
  ⟨hbc.options.trans hab.options, hbc.createdAt.trans hab.createdAt,
    hbc.lastRefresh.trans hab.lastRefresh⟩

end SameClock

theorem sameClock_ensure (state : Manager × List ManagerAct) (id : Uuid) (d : DesiredTunnel) :
    state.1.SameClock (ensure state id d).1 := by
  obtain ⟨m, acts⟩ := state
  simp only [ensure]
  split <;> exact ⟨rfl, rfl, rfl⟩

theorem sameClock_foldl_ensure (entries : List (Uuid × DesiredTunnel))
    (state : Manager × List ManagerAct) :
    state.1.SameClock (entries.foldl (fun state (id, d) => ensure state id d) state).1 := by
  induction entries generalizing state with
  | nil => exact .refl _
  | cons e entries ih => exact (sameClock_ensure state e.1 e.2).trans (ih _)

theorem sameClock_startMissing (m : Manager) : m.SameClock m.startMissing.1 :=
  (show m.SameClock { m with desired := _, phase := .free } from ⟨rfl, rfl, rfl⟩).trans
    (sameClock_foldl_ensure _ (_, []))

theorem sameClock_proceed (m : Manager) : m.SameClock m.proceed.1 := by
  rw [proceed]
  split
  · exact sameClock_startMissing m
  · exact ⟨rfl, rfl, rfl⟩
  · exact .refl m

theorem sameClock_release (m : Manager) (gone : Uuid × SupervisedTunnel → Bool) :
    m.SameClock (m.release gone).1 :=
  ⟨rfl, rfl, rfl⟩

/-- Whatever is noted before a manager goes on, it goes on with the same clock. -/
theorem SameClock.proceed {m₁ : Manager} (hm : m.SameClock m₁) (phase : ManagerPhase) :
    m.SameClock { m₁ with phase }.proceed.1 :=
  (hm.trans (show m₁.SameClock { m₁ with phase } from ⟨rfl, rfl, rfl⟩)).trans (sameClock_proceed _)

/-- Of all that happens to a manager, only a list that is taken over counts as a refresh. -/
theorem sameClock_step (m : Manager) (now : Instant) (hne : ∀ l, event ≠ .refreshed l) :
    m.SameClock (m.step now event).1 := by
  have hover : ∀ which, m.SameClock (m.markOver which) := fun which => ⟨rfl, rfl, rfl⟩
  cases event with
  | refreshed l => exact absurd rfl (hne l)
  | listingFailed e => exact .refl m
  | endBegins => exact ⟨rfl, rfl, rfl⟩
  | reconcile =>
    cases hp : m.phase with
    | free =>
      simp only [step, hp]
      exact (sameClock_release m _).proceed _
    | reconciling waiting deadline => simp only [step, hp]; exact .refl m
    | ending waiting deadline => simp only [step, hp]; exact .refl m
  | shutdown =>
    cases hp : m.phase with
    | free =>
      simp only [step, hp]
      exact (sameClock_release m _).proceed _
    | reconciling waiting deadline => simp only [step, hp]; exact .refl m
    | ending waiting deadline => simp only [step, hp]; exact .refl m
  | ended serial =>
    cases hp : m.phase with
    | free => simp only [step, hp]; exact hover _
    | reconciling waiting deadline => simp only [step, hp]; exact (hover _).proceed _
    | ending waiting deadline => simp only [step, hp]; exact (hover _).proceed _
  | timedOut =>
    cases hp : m.phase with
    | free => simp only [step, hp]; exact .refl m
    | reconciling waiting deadline =>
      simp only [step, hp]
      split
      · exact (hover _).proceed _
      · exact .refl m
    | ending waiting deadline =>
      simp only [step, hp]
      split
      · exact (hover _).proceed _
      · exact .refl m

/-- Through everything that happens a manager keeps its options and the time at which it was made,
and notes when a list was taken over last. -/
theorem Run.clocked (hr : Run m₀ h m acts) : m.options = m₀.options ∧
    m.createdAt = m₀.createdAt ∧ m.lastRefresh = h.refreshedAt?.or m₀.lastRefresh := by
  induction hr with
  | start => exact ⟨rfl, rfl, rfl⟩
  | @next h m acts now event _ hcall ih =>
    obtain ⟨hoptions, hcreated, hlast⟩ := ih
    by_cases hlisted : ∃ l, event = .refreshed l
    · obtain ⟨l, rfl⟩ := hlisted
      simp only [step, hcall rfl]
      exact ⟨hoptions, hcreated, rfl⟩
    · have hne : ∀ l, event ≠ .refreshed l := fun l heq => hlisted ⟨l, heq⟩
      have hsame := sameClock_step m now hne
      rw [ManagerHistory.refreshedAt?_of_not_refreshed hne]
      exact ⟨hsame.options.trans hoptions, hsame.createdAt.trans hcreated,
        hsame.lastRefresh.trans hlast⟩

/-! ## Twice an interval -/

theorem double?_of_lt {s : Span} (h : s.nanos < Span.undoubled.nanos) :
    s.double? = some ⟨2 * s.nanos⟩ := by
  have hbound : Span.bound = 2 * Span.undoubled.nanos := rfl
  rw [Span.double?, if_pos (by omega)]

theorem double?_of_le {s : Span} (h : Span.undoubled.nanos ≤ s.nanos) : s.double? = none := by
  have hbound : Span.bound = 2 * Span.undoubled.nanos := rfl
  rw [Span.double?, if_neg (by omega)]

/-- What a check says of a manager that refreshed last so long ago. -/
inductive Verdict (interval age : Span) : Except TunnelError Unit → Prop where
  | fresh : age.nanos ≤ 2 * interval.nanos → Verdict interval age (.ok ())
  | stale : 2 * interval.nanos < age.nanos → Verdict interval age (.error (.stale age))

/-- A manager whose interval can be doubled answers a check. -/
theorem verdict_check (hl : m.options.refreshInterval.nanos < Span.undoubled.nanos)
    (now : Instant) : ∃ answer, m.check now = some answer ∧
      Verdict m.options.refreshInterval (now.since (m.lastRefresh.getD m.createdAt)) answer := by
  rw [check, double?_of_lt hl, Option.map_some]
  refine ⟨_, rfl, ?_⟩
  simp only
  split
  · next hold => exact .stale hold
  · next hnew => exact .fresh (Nat.not_lt.mp hnew)

theorem check_eq_none (hl : Span.undoubled.nanos ≤ m.options.refreshInterval.nanos)
    (now : Instant) : m.check now = none := by
  rw [check, double?_of_le hl, Option.map_none]

/-! ## Managers of the command line -/

/-- The health of a manager with the options of a command line, at any time. -/
structure Health (a : ServerArguments) (createdAt : Instant) (h : ManagerHistory) (m : Manager) :
    Prop where
  /-- The refresh interval is a number of seconds of 64 bits, and never none. -/
  interval : ∃ n, 1 ≤ n ∧ n < UInt64.size ∧ a.manager.refreshInterval = .ofSeconds n
  /-- A check comes to an answer exactly if the interval can be doubled. -/
  answers_iff : ∀ now, (∃ answer, m.check now = some answer) ↔
    a.manager.refreshInterval.nanos < Span.undoubled.nanos
  /-- The answer is about the time since the last list was taken over, or since the manager was made
  if there has been none. -/
  verdict : ∀ now answer, m.check now = some answer →
    Verdict a.manager.refreshInterval (now.since (h.refreshedAt?.getD createdAt)) answer
  /-- A server that has its host key and its listener serves exactly if the interval can be
  doubled, and panics otherwise. -/
  serves : ∀ machine d, (∀ e, (Program.serve machine d a.reverse a.manager).ending ≠ .failed e) →
    if a.manager.refreshInterval.nanos < Span.undoubled.nanos then
      (Program.serve machine d a.reverse a.manager).ending =
        .serving a.reverse.bindHost a.reverse.port
    else ∃ message, (Program.serve machine d a.reverse a.manager).ending = .panicked message

/-- A server that has come to its timer. -/
theorem ending_serve {machine : Machine} {d : OpenDatabase} {reverse : ReverseOptions}
    {options : ManagerOptions}
    (hf : ∀ e, (Program.serve machine d reverse options).ending ≠ .failed e) :
    if options.refreshInterval.nanos < Span.undoubled.nanos then
      (Program.serve machine d reverse options).ending = .serving reverse.bindHost reverse.port
    else ∃ message, (Program.serve machine d reverse options).ending = .panicked message := by
  simp only [Program.serve] at hf ⊢
  generalize hostKey d.files reverse.hostKeyPath _ = made at hf ⊢
  generalize Network.bindFault? reverse.bindHost _ = fault at hf ⊢
  obtain ⟨files, e | key⟩ := made
  · exact absurd rfl (hf _)
  · cases fault with
    | some code => exact absurd rfl (hf _)
    | none =>
      simp only [Program.checkInterval?]
      by_cases hl : options.refreshInterval.nanos < Span.undoubled.nanos
      · rw [if_pos hl, double?_of_lt hl]
      · rw [if_neg hl, double?_of_le (Nat.not_lt.mp hl)]
        exact ⟨_, rfl⟩

/-- Whatever happens, and whenever it happens. -/
theorem health_of_run {env : List (String × String)} {words : List String} {a : ServerArguments}
    {createdAt : Instant} (ha : ServerArguments.read env words = .ok a)
    (hr : Run { options := a.manager, createdAt } h m acts) : Health a createdAt h m := by
  obtain ⟨hoptions, hcreated, hlast⟩ := hr.clocked
  rw [Option.or_none] at hlast
  refine ⟨ServerArguments.exists_seconds_of_read ha, fun now => ⟨fun hanswer => ?_, fun hl => ?_⟩,
    fun now answer hanswer => ?_, fun machine d hf => ending_serve hf⟩
  · obtain ⟨answer, hanswer⟩ := hanswer
    by_contra hl
    rw [check_eq_none (by rw [hoptions]; exact Nat.not_lt.mp hl)] at hanswer
    cases hanswer
  · obtain ⟨answer, hanswer, -⟩ := verdict_check (by rw [hoptions]; exact hl) now
    exact ⟨answer, hanswer⟩
  · by_cases hl : m.options.refreshInterval.nanos < Span.undoubled.nanos
    · obtain ⟨answer', hanswer', hverdict⟩ := verdict_check hl now
      cases hanswer.symm.trans hanswer'
      rw [hoptions, hcreated, hlast] at hverdict
      exact hverdict
    · rw [check_eq_none (Nat.not_lt.mp hl)] at hanswer
      cases hanswer

/-- At an interval of three seconds: a listing that failed does not count, and six seconds and a
nanosecond after the last list was taken over the manager is stale. -/
theorem stale_after_failed_listing : ∃ a m, ServerArguments.read [] ["--refresh-interval", "3"] =
      .ok a ∧ Health a 0 [(9, .listingFailed .panicked), (5, .refreshed [])] m ∧
    m.check 6000000005 = some (.ok ()) ∧
    m.check 6000000006 = some (.error (.stale ⟨6000000001⟩)) := by
  have hread : ∃ a, ServerArguments.read [] ["--refresh-interval", "3"] = .ok a ∧
      { refreshInterval := .ofSeconds 3 } = a.manager := ⟨_, rfl, by decide⟩
  obtain ⟨⟨db, logLevel, tunnel, reverse, manager, discoveryHost, command⟩, ha, rfl⟩ := hread
  have h₁ := Run.next 5 (.refreshed [])
    (@Run.start { options := { refreshInterval := .ofSeconds 3 }, createdAt := 0 }) fun _ => rfl
  have h₂ := h₁.next 9 (.listingFailed .panicked) nofun
  exact ⟨_, _, ha, health_of_run ha h₂, rfl, rfl⟩

/-- The greatest number of seconds that can be given: a manager that has just been made cannot be
checked, and a server that has its host key and its listener panics before it serves. -/
theorem greatest_interval_panics : ∃ a,
    ServerArguments.read [] ["--refresh-interval", "18446744073709551615"] = .ok a ∧
    Run { options := a.manager, createdAt := 0 } [] { options := a.manager, createdAt := 0 } [] ∧
    check { options := a.manager, createdAt := 0 } 0 = none ∧
    Program.checkInterval? a.manager = none ∧
    ∀ machine d, (∀ e, (Program.serve machine d a.reverse a.manager).ending ≠ .failed e) →
      ∃ message, (Program.serve machine d a.reverse a.manager).ending = .panicked message := by
  refine ⟨_, rfl, .start, rfl, rfl, fun machine d hf => ?_⟩
  have hending := ending_serve hf
  rw [if_neg (by decide)] at hending
  exact hending

end Manager
end SshTunnels
