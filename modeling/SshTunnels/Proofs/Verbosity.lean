import SshTunnels.Verbosity

/-!
# Steps of the verbosity

Logging is set up from a default level and a filter of the environment. The steps count from the
default level alone, and each step installs the level that it comes to. So a step follows from the
level in force as soon as one step has been made (`max_after_cons`), and before that only if the
filter of the environment happens to fit the default level: the first call may jump, and it may jump
the wrong way (`goes_rightly_iff`, `always_rightly_iff`, `louder_call_silences`).
-/

namespace SshTunnels

/-- A call that moves the level. -/
inductive VerbosityCall where
  | increase
  | decrease
  deriving DecidableEq, Repr

namespace VerbosityCall

/-- What the call makes of a level. -/
def step : VerbosityCall → LogLevel → LogLevel
  | .increase => LogLevel.louder
  | .decrease => LogLevel.quieter

/-- The level at which the calls stop. -/
def last : VerbosityCall → LogLevel
  | .increase => .trace
  | .decrease => .error

end VerbosityCall

/-- How much is let through up to this level; nothing, if there is none. -/
def LogLevel.loudness : Option LogLevel → Nat
  | none => 0
  | some level => level.rank + 1

namespace Verbosity

open LogLevel

variable {v v' : Verbosity} {call : VerbosityCall}

/-- Logging after calls, the latest call first. -/
def after (defaultLevel : String) (environment : Option String) : List VerbosityCall → Verbosity
  | [] => init defaultLevel environment
  | call :: h => (after defaultLevel environment h).adjust call.step

/-- A call went the right way. -/
structure Rightly (call : VerbosityCall) (v v' : Verbosity) : Prop where
  /-- An increase does not lower the greatest level in force, and a decrease does not raise it. -/
  direction : match call with
    | .increase => loudness v.max ≤ loudness v'.max
    | .decrease => loudness v'.max ≤ loudness v.max
  /-- It moved by at most one level. -/
  byOne : loudness v'.max ≤ loudness v.max + 1 ∧ loudness v.max ≤ loudness v'.max + 1
  /-- At the last level it stayed. -/
  stops : v.max = some call.last → v'.max = some call.last
  /-- The level that it returned is the greatest level in force. -/
  told : v'.max = some v'.level

/-- From the level in force a step leads where the step from the counted level leads, or it is there
already. -/
def Fits (call : VerbosityCall) (v : Verbosity) : Prop :=
  ∃ level, v.max = some level ∧ (call.step level = call.step v.level ∨ level = call.step v.level)

/-! ## One call -/

theorem rank_le (l : LogLevel) : l.rank ≤ 4 := by
  cases l <;> decide

theorem eq_of_rank_eq {l l' : LogLevel} (h : l.rank = l'.rank) : l = l' := by
  cases l <;> cases l' <;> first | rfl | cases h

theorem rank_louder (l : LogLevel) : l.louder.rank = min (l.rank + 1) 4 := by
  cases l <;> rfl

theorem rank_quieter (l : LogLevel) : l.quieter.rank = l.rank - 1 := by
  cases l <;> rfl

theorem Fits.of_max_eq (h : v.max = some v.level) (call : VerbosityCall) : Fits call v :=
  ⟨v.level, h, .inl rfl⟩

/-- At the level at which the calls stop, a fitting step stays. -/
theorem stops_of_fits (h : Fits call v) (hlast : v.max = some call.last) :
    call.step v.level = call.last := by
  obtain ⟨level, hmax, hstep⟩ := h
  cases hmax.symm.trans hlast
  have hfixed : call.step call.last = call.last := by
    cases call <;> rfl
  rcases hstep with heq | heq
  · exact heq.symm.trans hfixed
  · exact heq.symm

theorem rightly_of_fits (h : Fits call v) : Rightly call v (v.adjust call.step) := by
  have hstops := stops_of_fits h
  obtain ⟨level, hmax, hstep⟩ := h
  have hrank : (call.step level).rank = (call.step v.level).rank ∨
      level.rank = (call.step v.level).rank :=
    hstep.imp (congrArg rank) (congrArg rank)
  have hbound := rank_le level
  cases call with
  | increase =>
    simp only [VerbosityCall.step, rank_louder] at hrank
    refine ⟨?_, ⟨?_, ?_⟩, fun hlast => congrArg some (hstops hlast), rfl⟩ <;>
      simp only [hmax, loudness, adjust, VerbosityCall.step, rank_louder] <;> omega
  | decrease =>
    simp only [VerbosityCall.step, rank_quieter] at hrank
    refine ⟨?_, ⟨?_, ?_⟩, fun hlast => congrArg some (hstops hlast), rfl⟩ <;>
      simp only [hmax, loudness, adjust, VerbosityCall.step, rank_quieter] <;> omega

theorem fits_of_rightly (h : Rightly call v (v.adjust call.step)) : Fits call v := by
  obtain ⟨hdirection, ⟨habove, hbelow⟩, -, -⟩ := h
  cases hmax : v.max with
  | none =>
    -- nothing is let through: no decrease keeps to that, and an increase leads too far
    rw [hmax] at hdirection habove
    cases call with
    | increase =>
      simp only [loudness, adjust, VerbosityCall.step, rank_louder] at habove
      omega
    | decrease =>
      simp only [loudness, adjust, VerbosityCall.step] at hdirection
      omega
  | some level =>
    rw [hmax] at hdirection habove hbelow
    refine ⟨level, hmax, ?_⟩
    cases call with
    | increase =>
      simp only [loudness, adjust, VerbosityCall.step] at hdirection habove ⊢
      have hlouder := rank_louder level
      have hbound := rank_le v.level.louder
      rcases (by omega : level.louder.rank = v.level.louder.rank ∨
        level.rank = v.level.louder.rank) with heq | heq
      · exact .inl (eq_of_rank_eq heq)
      · exact .inr (eq_of_rank_eq heq)
    | decrease =>
      simp only [loudness, adjust, VerbosityCall.step] at hdirection hbelow ⊢
      have hquieter := rank_quieter level
      rcases (by omega : level.quieter.rank = v.level.quieter.rank ∨
        level.rank = v.level.quieter.rank) with heq | heq
      · exact .inl (eq_of_rank_eq heq)
      · exact .inr (eq_of_rank_eq heq)

/-! ## All calls -/

variable {defaultLevel : String} {environment : Option String} {h : List VerbosityCall}

/-- After a call the level in force is the one that the next call counts from. -/
theorem max_after_cons (call : VerbosityCall) (h : List VerbosityCall) :
    (after defaultLevel environment (call :: h)).max =
      some (after defaultLevel environment (call :: h)).level :=
  rfl

/-- Without a filter in the environment the first call counts from the level in force too. -/
theorem max_init_none (defaultLevel : String) :
    (init defaultLevel none).max = some (init defaultLevel none).level := by
  simp only [init, filterFor, Option.bind_none, Option.getD_none]

/-- A filter in the environment that names a level puts this level in force. -/
theorem max_init_name (defaultLevel : String) (level : LogLevel) :
    (init defaultLevel (some level.name)).max = some level := by
  have hfilter : filter? level.name = some (some level) := by
    cases level <;> rfl
  simp only [init, filterFor, Option.bind_some, hfilter, Option.getD_some]

/-- Both calls fit a level in force exactly if the calls count from this level, or from the end of
the scale next to it. -/
theorem fits_both_iff (counted level : LogLevel) (filter : Option LogLevel) :
    (∀ call, Fits call ⟨counted, filter, some level⟩) ↔
      level = counted ∨ counted = .error ∧ level = .warn ∨ counted = .trace ∧ level = .debug := by
  have hfits (call : VerbosityCall) : Fits call ⟨counted, filter, some level⟩ ↔
      call.step level = call.step counted ∨ level = call.step counted :=
    ⟨fun ⟨_, heq, h⟩ => Option.some.inj heq ▸ h, fun h => ⟨level, rfl, h⟩⟩
  simp only [hfits]
  constructor
  · intro h
    have hup := h .increase
    have hdown := h .decrease
    revert hup hdown
    cases counted <;> cases level <;> decide
  · rintro (rfl | ⟨rfl, rfl⟩ | ⟨rfl, rfl⟩) call
    · exact .inl rfl
    · cases call <;> decide
    · cases call <;> decide

/-- A later call always goes the right way, and the first one if the level in force fits it. -/
theorem rightly_of_first (hfirst : h = [] → Fits call (init defaultLevel environment)) :
    Rightly call (after defaultLevel environment h)
      (after defaultLevel environment (call :: h)) := by
  refine rightly_of_fits ?_
  cases h with
  | nil => exact hfirst rfl
  | cons earlier h => exact .of_max_eq (max_after_cons earlier h) call

/-- Without a filter in the environment every call goes the right way. -/
theorem rightly_without_filter (defaultLevel : String) (call : VerbosityCall)
    (h : List VerbosityCall) :
    Rightly call (after defaultLevel none h) (after defaultLevel none (call :: h)) :=
  rightly_of_first fun _ => .of_max_eq (max_init_none defaultLevel) call

/-- Every call goes the right way, but for the first one, which does so exactly if the level that is
in force when logging has been set up fits the default level. -/
theorem goes_rightly_iff (defaultLevel : String) (environment : Option String)
    (call : VerbosityCall) (h : List VerbosityCall) :
    Rightly call (after defaultLevel environment h) (after defaultLevel environment (call :: h)) ↔
      (h = [] → Fits call (init defaultLevel environment)) := by
  refine ⟨fun hr heq => ?_, rightly_of_first⟩
  subst heq
  exact fits_of_rightly hr

/-- If the environment names a level, all calls go the right way exactly if the default level is the
same, or the end of the scale next to it. -/
theorem always_rightly_iff (defaultLevel : String) (level counted : LogLevel)
    (hcounted : (LogLevel.ofText? defaultLevel).getD .info = counted) :
    (∀ call h, Rightly call (after defaultLevel (some level.name) h)
      (after defaultLevel (some level.name) (call :: h))) ↔
      level = counted ∨ counted = .error ∧ level = .warn ∨ counted = .trace ∧ level = .debug := by
  have hinit : init defaultLevel (some level.name) = ⟨counted, some level, some level⟩ := by
    have hmax := max_init_name defaultLevel level
    rw [← hcounted]
    exact congrArg (fun force => (⟨_, force, force⟩ : Verbosity)) hmax
  rw [← fits_both_iff counted level (some level), ← hinit]
  exact ⟨fun h call => fits_of_rightly (h call []), fun h call past => rightly_of_first fun _ => h call⟩

/-- The environment asks for everything, the default level is the usual one, and the first call
asks for more: less is logged from then on. -/
theorem louder_call_silences :
    (after "info" (some "trace") []).max = some .trace ∧
    (after "info" (some "trace") [.increase]).max = some .debug ∧
    ¬ Rightly .increase (after "info" (some "trace") [])
      (after "info" (some "trace") [.increase]) := by
  have hbefore : (after "info" (some "trace") []).max = some .trace := max_init_name "info" .trace
  have hafter : (after "info" (some "trace") [.increase]).max = some .debug := by decide +kernel
  refine ⟨hbefore, hafter, fun h => ?_⟩
  have hdirection := h.direction
  simp only [hbefore, hafter] at hdirection
  exact absurd hdirection (by decide)

end Verbosity
end SshTunnels
