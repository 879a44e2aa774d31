import SshTunnels.CommandLine.Arguments
import SshTunnels.Proofs.Text.Numerals

/-!
# The refresh interval of a command line

The manager refreshes at an interval of whole seconds that the command line or the environment
gives. Every number of seconds of 64 bits can be given, and no other; none at all is raised to one
(`exists_read_iff`).
-/

namespace SshTunnels

/-- A number of seconds is read as it is written. -/
theorem secondsOfText?_toString {n : Nat} (hn : n < UInt64.size) :
    secondsOfText? (toString n) = some n := by
  obtain ⟨c, cs, hcs, hc, hall, hvalue⟩ := Text.exists_toList_eq_cons n
  have hplus : c ≠ '+' := by
    rintro rfl
    cases hc
  have hnatural : Text.natural? (toString n) = some n := by
    rw [Text.natural?, hcs]
    split
    · next heq =>
      injection heq with hhead
      exact absurd hhead hplus
    · rw [if_pos ⟨List.cons_ne_nil c cs, hall⟩, hvalue]
  rw [secondsOfText?, hnatural, Option.filter_some, if_pos (decide_eq_true hn)]

theorem lt_of_secondsOfText? {text : String} {n : Nat} (h : secondsOfText? text = some n) :
    n < UInt64.size := by
  obtain ⟨-, hlt⟩ := Option.filter_eq_some_iff.mp h
  exact of_decide_eq_true hlt

namespace CommandReader

/-- An option that waits for its value takes a number as such. -/
theorem read_toString {r : CommandReader} {p : PendingArgument} (hr : r.isEscaped = false)
    (hp : r.pending = some p) (hoption : p.isOption = true) (hvalue : p.value = none) (n : Nat) :
    r.read (toString n) =
      .ok (.further { r with pending := some { p with value := some (toString n) } }) := by
  obtain ⟨c, cs, hcs, hc, -, -⟩ := Text.exists_toList_eq_cons n
  have hdash : c ≠ '-' := by
    rintro rfl
    cases hc
  have hwaits : r.isWaiting = true := by
    rw [isWaiting, hp]
    simp [hoption, hvalue]
  have hplain : r.readPlain (toString n) =
      .ok (.further { r with pending := some { p with value := some (toString n) } }) := by
    rw [readPlain, hp]
    simp only
    rw [if_pos ⟨hoption, by rw [hvalue]; rfl⟩]
  rw [read, if_neg (by rw [hr]; exact Bool.false_ne_true), hwaits, hcs]
  simp only [if_true, Bool.not_true, Bool.false_and, Bool.false_eq_true, if_false]
  split
  · next heq => injection heq with hhead; exact absurd hhead hdash
  · next heq => injection heq with hhead; exact absurd hhead hdash
  · next heq => injection heq with hhead; exact absurd hhead hdash
  · exact hplain

end CommandReader

namespace ServerArguments

/-- A number of seconds that is given, or one to fall back on, raised to one second. -/
theorem raised_elim (given : Option Nat) (fallback : Nat) :
    (let s : Span := given.elim (.ofSeconds fallback) .ofSeconds
    if s.nanos < 1000000000 then Span.ofSeconds 1 else s) =
      .ofSeconds (max 1 (given.getD fallback)) := by
  have hraise (n : Nat) : (if n * 1000000000 < 1000000000 then Span.ofSeconds 1
      else Span.ofSeconds n) = .ofSeconds (max 1 n) := by
    by_cases hzero : n = 0
    · subst hzero
      rfl
    · rw [if_neg (by omega), Nat.max_eq_right (by omega)]
  cases given with
  | none => exact hraise fallback
  | some n => exact hraise n

/-- The refresh interval is the number of seconds that is given, and one second where none is given.
It is never less. -/
theorem refreshInterval_ofParsed (p : ParsedCommand) :
    (ofParsed p).manager.refreshInterval =
      .ofSeconds (max 1 (((p.get? "refresh-interval").bind secondsOfText?).getD 1)) :=
  raised_elim _ 1

/-- What is given for a number of seconds, or is to be fallen back on, has 64 bits. -/
theorem seconds_lt (given : Option String) {fallback : Nat} (hfallback : fallback < UInt64.size) :
    (given.bind secondsOfText?).getD fallback < UInt64.size := by
  cases hgiven : given.bind secondsOfText? with
  | none => exact hfallback
  | some n =>
    obtain ⟨text, -, htext⟩ := Option.bind_eq_some_iff.mp hgiven
    exact lt_of_secondsOfText? htext

theorem exists_seconds_of_read {env : List (String × String)} {words : List String}
    {a : ServerArguments} (h : read env words = .ok a) :
    ∃ n, 1 ≤ n ∧ n < UInt64.size ∧ a.manager.refreshInterval = .ofSeconds n := by
  rw [read] at h
  cases hp : CommandReader.run env words { spec } with
  | error fault =>
    rw [hp] at h
    cases h
  | ok p =>
    rw [hp] at h
    cases h
    exact ⟨_, Nat.le_max_left _ _, Nat.max_lt.mpr ⟨by decide, seconds_lt _ (by decide)⟩,
      refreshInterval_ofParsed p⟩

/-- The number is taken over from the command line. -/
theorem read_refreshInterval {n : Nat} (hn : n < UInt64.size) :
    ∃ a, read [] ["--refresh-interval", toString n] = .ok a ∧
      a.manager.refreshInterval = .ofSeconds (max 1 n) := by
  have hseconds := secondsOfText?_toString hn
  have hname : CommandReader.read { spec } "--refresh-interval" = .ok (.further
      { spec, pending := some ⟨"refresh-interval", .seconds, true, none⟩ }) := rfl
  have hvalue := @CommandReader.read_toString
    { spec, pending := some ⟨"refresh-interval", .seconds, true, none⟩ } _ rfl rfl rfl rfl n
  have hkept : CommandReader.keep { spec } "refresh-interval" (toString n) .seconds .commandLine =
      .ok { spec, values := [("refresh-interval", toString n, .commandLine)] } := by
    simp only [CommandReader.keep, ValueKind.fault?, hseconds]
    rfl
  have hfinish : CommandReader.finish
      { spec, pending := some ⟨"refresh-interval", .seconds, true, some (toString n)⟩ } [] none =
      .ok (.mk "tb-server" [("refresh-interval", toString n, .commandLine)] none) := by
    simp only [CommandReader.finish, CommandReader.settle, hkept]
    rfl
  have hrun : CommandReader.run [] ["--refresh-interval", toString n] { spec } =
      .ok (.mk "tb-server" [("refresh-interval", toString n, .commandLine)] none) := by
    rw [CommandReader.run, hname]
    change CommandReader.run [] [toString n] _ = _
    rw [CommandReader.run, hvalue]
    exact hfinish
  refine ⟨_, by rw [read, hrun]; rfl, ?_⟩
  rw [refreshInterval_ofParsed]
  change Span.ofSeconds (max 1 ((secondsOfText? (toString n)).getD 1)) = _
  rw [hseconds, Option.getD_some]

/-- The intervals at which a manager of the command line can refresh. -/
theorem exists_read_iff {n : Nat} : (∃ env words a, read env words = .ok a ∧
    a.manager.refreshInterval = .ofSeconds n) ↔ 1 ≤ n ∧ n < UInt64.size := by
  constructor
  · rintro ⟨env, words, a, ha, hinterval⟩
    obtain ⟨k, hone, hlt, hk⟩ := exists_seconds_of_read ha
    have heq : k * 1000000000 = n * 1000000000 := congrArg Span.nanos (hk.symm.trans hinterval)
    rw [← Nat.eq_of_mul_eq_mul_right (by decide) heq]
    exact ⟨hone, hlt⟩
  · rintro ⟨hone, hlt⟩
    obtain ⟨a, ha, hinterval⟩ := read_refreshInterval hlt
    rw [Nat.max_eq_right hone] at hinterval
    exact ⟨[], _, a, ha, hinterval⟩

end ServerArguments
end SshTunnels
