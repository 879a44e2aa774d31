import Mathlib.Order.Bounds.Basic
import SshTunnels.Keepalive
import SshTunnels.Proofs.CommandLine.Intervals

/-!
# The budget of keepalives

The command line and the environment give the interval and the timeout of keepalives in whole
seconds. Whatever they give, the budget is the least number of intervals, and one at least, that
span the timeout, and it fits its word (`covers_ofParsed`).
-/

namespace SshTunnels

namespace Keepalive

variable {interval timeout : Nat}

/-- The budget of a tunnel's options is the least positive number of intervals that span the
timeout. It is never zero, and nothing is cut off at 64 bits. -/
structure Covers (o : TunnelOptions) : Prop where
  least : IsLeast {n : Nat | 0 < n ∧ o.keepaliveTimeout.nanos ≤ n * o.keepaliveInterval.nanos}
    (budget o.keepaliveInterval o.keepaliveTimeout).toNat
  ne_zero : budget o.keepaliveInterval o.keepaliveTimeout ≠ 0
  fits : (budget o.keepaliveInterval o.keepaliveTimeout).toNat =
    intervals o.keepaliveInterval o.keepaliveTimeout

theorem intervals_ofSeconds (hi : 1 ≤ interval) (timeout : Nat) :
    intervals (.ofSeconds interval) (.ofSeconds timeout) =
      max 1 ((timeout * 1000 + interval * 1000 - 1) / (interval * 1000)) := by
  have hmillis (n : Nat) : (Span.ofSeconds n).millis = n * 1000 := by
    change n * 1000000000 / 1000000 = n * 1000
    omega
  have hstep : max 1 (interval * 1000) = interval * 1000 := Nat.max_eq_right (by omega)
  rw [intervals, hmillis, hmillis]
  simp only [hstep]

/-- The numbers of intervals from the budget on are those that span the timeout. -/
theorem intervals_le_iff (hi : 1 ≤ interval) (timeout n : Nat) :
    intervals (.ofSeconds interval) (.ofSeconds timeout) ≤ n ↔
      0 < n ∧ (Span.ofSeconds timeout).nanos ≤ n * (Span.ofSeconds interval).nanos := by
  have hceil : (timeout * 1000 + interval * 1000 - 1) / (interval * 1000) ≤ n ↔
      timeout * 1000 + interval * 1000 - 1 < n * interval * 1000 + interval * 1000 := by
    rw [← Nat.lt_add_one_iff, Nat.div_lt_iff_lt_mul (by omega), Nat.succ_mul, Nat.mul_assoc]
  rw [intervals_ofSeconds hi, Nat.max_le, hceil]
  change _ ↔ 0 < n ∧ timeout * 1000000000 ≤ n * (interval * 1000000000)
  rw [← Nat.mul_assoc]
  omega

/-- A timeout is spanned by no more intervals than it has seconds. -/
theorem intervals_lt (hi : 1 ≤ interval) (ht : timeout < UInt64.size) :
    intervals (.ofSeconds interval) (.ofSeconds timeout) < UInt64.size := by
  refine Nat.lt_of_le_of_lt ((intervals_le_iff hi timeout (max 1 timeout)).mpr ⟨by omega, ?_⟩)
    (Nat.max_lt.mpr ⟨by decide, ht⟩)
  calc timeout * 1000000000
    _ ≤ max 1 timeout * 1000000000 := Nat.mul_le_mul_right _ (Nat.le_max_right 1 timeout)
    _ ≤ max 1 timeout * (interval * 1000000000) := Nat.mul_le_mul_left _ (by omega)

theorem covers_of_seconds {o : TunnelOptions} (hi : 1 ≤ interval) (ht : timeout < UInt64.size)
    (hinterval : o.keepaliveInterval = .ofSeconds interval)
    (htimeout : o.keepaliveTimeout = .ofSeconds timeout) : Covers o := by
  have hexact : (budget o.keepaliveInterval o.keepaliveTimeout).toNat =
      intervals (.ofSeconds interval) (.ofSeconds timeout) := by
    rw [hinterval, htimeout]
    exact UInt64.toNat_ofNat_of_lt' (intervals_lt hi ht)
  have hleast : IsLeast
      {n : Nat | 0 < n ∧ o.keepaliveTimeout.nanos ≤ n * o.keepaliveInterval.nanos}
      (intervals (.ofSeconds interval) (.ofSeconds timeout)) := by
    rw [hinterval, htimeout]
    exact ⟨(intervals_le_iff hi timeout _).mp (Nat.le_refl _),
      fun n hn => (intervals_le_iff hi timeout n).mpr hn⟩
  refine ⟨hexact ▸ hleast, fun hzero => ?_, by rw [hexact, hinterval, htimeout]⟩
  have hpos := hleast.1.1
  rw [← hexact, hzero] at hpos
  exact absurd hpos (Nat.lt_irrefl 0)

end Keepalive

namespace ServerArguments

/-- The interval of keepalives is the number of seconds that is given, and at least one. -/
theorem keepaliveInterval_ofParsed (p : ParsedCommand) :
    (ofParsed p).tunnel.keepaliveInterval =
      .ofSeconds (max 1 (((p.get? "keepalive-interval").bind secondsOfText?).getD 60)) :=
  raised_elim _ 60

/-- The timeout of keepalives is the number of seconds that is given. -/
theorem keepaliveTimeout_ofParsed (p : ParsedCommand) :
    (ofParsed p).tunnel.keepaliveTimeout =
      .ofSeconds (((p.get? "keepalive-timeout").bind secondsOfText?).getD 15) := by
  change ((p.get? "keepalive-timeout").bind secondsOfText?).elim _ _ = _
  cases (p.get? "keepalive-timeout").bind secondsOfText? <;> rfl

/-- Any two numbers of seconds of 64 bits can be given. -/
theorem exists_keepalive (interval timeout : UInt64) : ∃ p : ParsedCommand,
    (ofParsed p).tunnel.keepaliveInterval = .ofSeconds (max 1 interval.toNat) ∧
      (ofParsed p).tunnel.keepaliveTimeout = .ofSeconds timeout.toNat := by
  refine ⟨.mk "tb-server" [("keepalive-interval", toString interval.toNat, .commandLine),
    ("keepalive-timeout", toString timeout.toNat, .commandLine)] none, ?_, ?_⟩
  · rw [keepaliveInterval_ofParsed]
    change Span.ofSeconds (max 1 ((secondsOfText? (toString interval.toNat)).getD 60)) = _
    rw [secondsOfText?_toString interval.toNat_lt, Option.getD_some]
  · rw [keepaliveTimeout_ofParsed]
    change Span.ofSeconds ((secondsOfText? (toString timeout.toNat)).getD 15) = _
    rw [secondsOfText?_toString timeout.toNat_lt, Option.getD_some]

/-- Whatever the command line gives for the keepalives, their budget covers it, and it can give any
two numbers of seconds. -/
theorem covers_ofParsed : (∀ p, Keepalive.Covers (ofParsed p).tunnel) ∧
    ∀ interval timeout : UInt64, ∃ p,
      (ofParsed p).tunnel.keepaliveInterval = .ofSeconds (max 1 interval.toNat) ∧
        (ofParsed p).tunnel.keepaliveTimeout = .ofSeconds timeout.toNat :=
  ⟨fun p => Keepalive.covers_of_seconds (Nat.le_max_left 1 _) (seconds_lt _ (by decide))
    (keepaliveInterval_ofParsed p) (keepaliveTimeout_ofParsed p), exists_keepalive⟩

end ServerArguments

/-- Three intervals of ten seconds span a timeout of 25. -/
example : Keepalive.budget (.ofSeconds 10) (.ofSeconds 25) = 3 := by decide

end SshTunnels
