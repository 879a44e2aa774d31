import Mathlib.Algebra.GroupWithZero.Nat
import SshTunnels.Probe

/-!
# What a probe says of an endpoint

A probe that has an outcome calls the tunnel healthy exactly if its dial succeeds in time and no
read fails while it still listens (`Classifies`): after the end of the wait, behind a close and
behind as many bytes as it wants it does not listen any more. An endpoint that is reached has an
outcome unless more may be read than a buffer can hold (`exists_classifies_iff`).
-/

namespace SshTunnels

namespace Arrival

/-- The number of bytes that come in. -/
def count : Arrival → Nat
  | .bytes count => count
  | .closed | .failed _ => 0

end Arrival

namespace ProbeOutcome

variable {o : ProbeOutcome}

theorem health_eq_healthy_iff : o.health = .healthy ↔ o.fault = none := by
  cases h : o.fault <;> simp [health, h]

theorem health_eq_unhealthy_iff : o.health = .unhealthy ↔ o.fault ≠ none := by
  cases h : o.fault <;> simp [health, h]

end ProbeOutcome

namespace Probe

variable {options : ConncheckOptions} {endpoint : Endpoint} {budget i : Nat} {pause wait : Span}
  {arrival : Arrival} {arrivals rest : List (Span × Arrival)} {fault : IoError}

/-! ## While a probe listens -/

/-- The time of an arrival, from the connection on. -/
def arrivalTime (arrivals : List (Span × Arrival)) (i : Nat) : Nat :=
  ((arrivals.take (i + 1)).map (·.1.nanos)).sum

/-- The bytes that come in before an arrival. -/
def bytesBefore (arrivals : List (Span × Arrival)) (i : Nat) : Nat :=
  ((arrivals.take i).map (·.2.count)).sum

/-- The probe still listens when this arrival comes. -/
structure IsHeard (budget : Nat) (wait : Span) (arrivals : List (Span × Arrival)) (i : Nat) :
    Prop where
  /-- The wait is not over; what comes as it ends is still heard. -/
  inTime : arrivalTime arrivals i ≤ wait.nanos
  /-- Bytes are still wanted. -/
  isWanted : bytesBefore arrivals i < budget
  /-- The connection has not been closed. -/
  isOpen : ∀ j < i, ∀ pause, arrivals[j]? ≠ some (pause, .closed)

/-- A read fails while the probe listens. -/
def ReadFails (budget : Nat) (wait : Span) (arrivals : List (Span × Arrival)) (i : Nat)
    (fault : IoError) : Prop :=
  IsHeard budget wait arrivals i ∧ ∃ pause, arrivals[i]? = some (pause, .failed fault)

/-- A read fails while the probe listens, and none has failed before. -/
def FirstFails (budget : Nat) (wait : Span) (arrivals : List (Span × Arrival)) (fault : IoError) :
    Prop :=
  ∃ i, ReadFails budget wait arrivals i fault ∧
    ∀ j < i, ∀ earlier, ¬ ReadFails budget wait arrivals j earlier

theorem isHeard_zero :
    IsHeard budget wait ((pause, arrival) :: rest) 0 ↔ pause.nanos ≤ wait.nanos ∧ 0 < budget := by
  constructor
  · rintro ⟨htime, hwanted, -⟩
    exact ⟨by simpa [arrivalTime] using htime, by simpa [bytesBefore] using hwanted⟩
  · rintro ⟨htime, hwanted⟩
    exact ⟨by simpa [arrivalTime] using htime, by simpa [bytesBefore] using hwanted, nofun⟩

/-- Later arrivals are heard if the first one comes in time and leaves the connection open: with the
wait and the bytes that are left. -/
theorem isHeard_succ : IsHeard budget wait ((pause, arrival) :: rest) (i + 1) ↔
    pause.nanos ≤ wait.nanos ∧ arrival ≠ .closed ∧
      IsHeard (budget - arrival.count) ⟨wait.nanos - pause.nanos⟩ rest i := by
  have htime : arrivalTime ((pause, arrival) :: rest) (i + 1) =
      pause.nanos + arrivalTime rest i := by
    simp [arrivalTime]
  have hbytes : bytesBefore ((pause, arrival) :: rest) (i + 1) =
      arrival.count + bytesBefore rest i := by
    simp [bytesBefore]
  constructor
  · rintro ⟨hin, hwanted, hopen⟩
    rw [htime] at hin
    rw [hbytes] at hwanted
    refine ⟨by omega, ?_, by simp only; omega, by omega, fun j hj pause' => ?_⟩
    · rintro rfl
      exact hopen 0 (Nat.succ_pos i) pause rfl
    · simpa using hopen (j + 1) (Nat.succ_lt_succ hj) pause'
  · rintro ⟨hfirst, hclosed, hin, hwanted, hopen⟩
    refine ⟨by rw [htime]; simp only at hin; omega, by rw [hbytes]; omega, fun j hj pause' => ?_⟩
    cases j with
    | zero =>
      intro heq
      cases heq
      exact hclosed rfl
    | succ j => simpa using hopen j (Nat.lt_of_succ_lt_succ hj) pause'

theorem readFails_zero : ReadFails budget wait ((pause, arrival) :: rest) 0 fault ↔
    pause.nanos ≤ wait.nanos ∧ 0 < budget ∧ arrival = .failed fault := by
  rw [ReadFails, isHeard_zero, and_assoc]
  simp

theorem readFails_succ : ReadFails budget wait ((pause, arrival) :: rest) (i + 1) fault ↔
    pause.nanos ≤ wait.nanos ∧ arrival ≠ .closed ∧
      ReadFails (budget - arrival.count) ⟨wait.nanos - pause.nanos⟩ rest i fault := by
  rw [ReadFails, isHeard_succ, ReadFails, List.getElem?_cons_succ]
  simp only [and_assoc]

theorem not_readFails_of_budget_eq_zero : ¬ ReadFails 0 wait arrivals i fault :=
  fun h => Nat.not_lt_zero _ h.1.isWanted

/-! ## Listening -/

/-- A probe that goes on listening behind its first bytes hears what it would hear of the rest. -/
theorem firstFails_bytes {count : Nat} (hpause : pause.nanos ≤ wait.nanos)
    (h : FirstFails (budget - count) ⟨wait.nanos - pause.nanos⟩ rest fault) :
    FirstFails budget wait ((pause, .bytes count) :: rest) fault := by
  obtain ⟨i, hfails, hfirst⟩ := h
  refine ⟨i + 1, readFails_succ.mpr ⟨hpause, nofun, hfails⟩, fun j hj earlier hearlier => ?_⟩
  cases j with
  | zero => cases (readFails_zero.mp hearlier).2.2
  | succ j =>
    exact hfirst j (Nat.lt_of_succ_lt_succ hj) earlier (readFails_succ.mp hearlier).2.2

/-- Listening ends with the fault of the first read that fails, and well if none does. -/
theorem listen_cases (hbudget : 0 < budget) (wait : Span) (arrivals : List (Span × Arrival)) :
    ((listen budget wait arrivals).fault = none ∧
        ∀ i fault, ¬ ReadFails budget wait arrivals i fault) ∨
      ∃ fault, (listen budget wait arrivals).fault = some (.read fault) ∧
        FirstFails budget wait arrivals fault := by
  fun_induction listen budget wait arrivals with
  | case1 => exact .inl ⟨rfl, fun i fault h => by simpa using h.2⟩
  | case2 budget wait pause arrival rest hlate =>
    refine .inl ⟨rfl, fun i fault h => absurd hlate (Nat.not_lt.mpr ?_)⟩
    cases i with
    | zero => exact (readFails_zero.mp h).1
    | succ i => exact (readFails_succ.mp h).1
  | case3 budget wait pause rest hpause =>
    refine .inl ⟨rfl, fun i fault h => ?_⟩
    cases i with
    | zero => cases (readFails_zero.mp h).2.2
    | succ i => exact (readFails_succ.mp h).2.1 rfl
  | case4 budget wait pause rest hpause e =>
    exact .inr ⟨e, rfl, 0, readFails_zero.mpr ⟨Nat.not_lt.mp hpause, hbudget, rfl⟩, nofun⟩
  | case5 budget wait pause rest hpause count henough =>
    refine .inl ⟨rfl, fun i fault h => ?_⟩
    cases i with
    | zero => cases (readFails_zero.mp h).2.2
    | succ i =>
      have hrest := (readFails_succ.mp h).2.2
      rw [Arrival.count, Nat.sub_eq_zero_of_le henough] at hrest
      exact not_readFails_of_budget_eq_zero hrest
  | case6 budget wait pause rest hpause count hmore later ih =>
    rcases ih (Nat.sub_pos_of_lt (Nat.not_le.mp hmore)) with
      ⟨hnone, hfine⟩ | ⟨fault, hfault, hfirst⟩
    · refine .inl ⟨hnone, fun i fault h => ?_⟩
      cases i with
      | zero => cases (readFails_zero.mp h).2.2
      | succ i => exact hfine i fault (readFails_succ.mp h).2.2
    · exact .inr ⟨fault, hfault, firstFails_bytes (Nat.not_lt.mp hpause) hfirst⟩

/-- Listening reads no more bytes than it may. -/
theorem bytesRead_listen_le (budget : Nat) (wait : Span) (arrivals : List (Span × Arrival)) :
    (listen budget wait arrivals).bytesRead ≤ budget := by
  fun_induction listen budget wait arrivals with
  | case1 => exact Nat.zero_le _
  | case2 => exact Nat.zero_le _
  | case3 => exact Nat.zero_le _
  | case4 => exact Nat.zero_le _
  | case5 => exact Nat.le_refl _
  | case6 budget wait pause rest _ count hmore later ih =>
    simp only [later] at ih ⊢
    omega

/-! ## Checking -/

/-- The endpoint answers the dial with a connection, before the dial times out. -/
def Reaches (options : ConncheckOptions) (endpoint : Endpoint) : Prop :=
  ∃ took, endpoint.dial = .connected took ∧ took.nanos ≤ options.dialTimeout.nanos

/-- The outcome says of the endpoint what it does. -/
structure Classifies (options : ConncheckOptions) (endpoint : Endpoint) (o : ProbeOutcome) :
    Prop where
  /-- The tunnel is healthy if the dial succeeds and no read fails while the probe listens. -/
  healthy_iff : o.health = .healthy ↔ Reaches options endpoint ∧
    ∀ i fault, ¬ ReadFails (max 1 options.maxRead) options.readWait endpoint.arrivals i fault
  /-- Otherwise it is unhealthy, and then only there is a reason. -/
  unhealthy_iff (address : String) : o.health = .unhealthy ↔ (o.reason? address).isSome
  known : o.health = .healthy ∨ o.health = .unhealthy
  /-- No more bytes are read than may be. -/
  bytesRead_le : o.bytesRead ≤ max 1 options.maxRead
  /-- The reason is the dial if that does not succeed. -/
  dial (address : String) : ¬ Reaches options endpoint →
    ∃ detail, o.reason? address = some ("dial " ++ address ++ ": " ++ detail)
  /-- If it does, the reason is the first read that fails. -/
  read (address : String) : Reaches options endpoint →
    ∀ reason, o.reason? address = some reason →
      ∃ fault, reason = "read " ++ address ++ ": " ++ fault.message ∧
        FirstFails (max 1 options.maxRead) options.readWait endpoint.arrivals fault

theorem isReached_iff : isReached options endpoint = true ↔ Reaches options endpoint := by
  unfold isReached Reaches
  split
  · next took hdial => simp [hdial]
  · next hdial =>
    refine iff_of_false Bool.false_ne_true ?_
    rintro ⟨took, hconnected, -⟩
    exact hdial took hconnected

/-- A probe that reaches the endpoint finds out what it hears. -/
theorem check_of_reaches (h : Reaches options endpoint) :
    let heard := listen (max 1 options.maxRead) options.readWait endpoint.arrivals
    (check options endpoint).fault = heard.fault ∧
      (check options endpoint).bytesRead = heard.bytesRead := by
  obtain ⟨took, hdial, htook⟩ := h
  simp only [check, hdial, if_pos htook, and_self]

/-- A probe that does not reach the endpoint says why, and has read nothing. -/
theorem check_of_not_reaches (h : ¬ Reaches options endpoint) :
    (check options endpoint).bytesRead = 0 ∧
      ∃ fault, (check options endpoint).fault = some fault ∧
        ∀ address, ∃ detail, fault.reason address = "dial " ++ address ++ ": " ++ detail := by
  have htimedOut (address : String) : ∃ detail,
      (ProbeFault.dialTimeout options.dialTimeout).reason address =
        "dial " ++ address ++ ": " ++ detail := by
    have hwords : ": timed out after " = ": " ++ "timed out after " := by decide
    refine ⟨"timed out after " ++ toString options.dialTimeout, ?_⟩
    show "dial " ++ address ++ ": timed out after " ++ toString options.dialTimeout = _
    rw [hwords]
    simp only [String.append_assoc]
  rw [check]
  cases hdial : endpoint.dial with
  | silent => exact ⟨rfl, _, rfl, htimedOut⟩
  | failed took e =>
    dsimp only
    split
    · exact ⟨rfl, _, rfl, fun address => ⟨e.message, rfl⟩⟩
    · exact ⟨rfl, _, rfl, htimedOut⟩
  | connected took =>
    dsimp only
    split
    · next htook => exact absurd ⟨took, hdial, htook⟩ h
    · exact ⟨rfl, _, rfl, htimedOut⟩

/-- What a check finds out is right. -/
theorem classifies_check (options : ConncheckOptions) (endpoint : Endpoint) :
    Classifies options endpoint (check options endpoint) := by
  have hreason (o : ProbeOutcome) (address : String) :
      o.health = .unhealthy ↔ (o.reason? address).isSome := by
    rw [ProbeOutcome.health_eq_unhealthy_iff, ProbeOutcome.reason?, Option.isSome_map,
      Option.isSome_iff_ne_none]
  have hknown (o : ProbeOutcome) : o.health = .healthy ∨ o.health = .unhealthy := by
    rw [ProbeOutcome.health_eq_healthy_iff, ProbeOutcome.health_eq_unhealthy_iff]
    exact Classical.em _
  by_cases hreaches : Reaches options endpoint
  · obtain ⟨hfault, hbytes⟩ := check_of_reaches hreaches
    have hlisten := listen_cases (Nat.le_max_left 1 options.maxRead) options.readWait
      endpoint.arrivals
    rw [← hfault] at hlisten
    refine ⟨?_, hreason _, hknown _, hbytes ▸ bytesRead_listen_le _ _ _,
      fun _ h => absurd hreaches h, fun address _ reason h => ?_⟩
    · rw [ProbeOutcome.health_eq_healthy_iff]
      rcases hlisten with ⟨hnone, hfine⟩ | ⟨fault, hsome, i, hfails, -⟩
      · exact iff_of_true hnone ⟨hreaches, hfine⟩
      · exact iff_of_false (by rw [hsome]; nofun) fun h => h.2 i fault hfails
    · rcases hlisten with ⟨hnone, -⟩ | ⟨fault, hsome, hfirst⟩
      · rw [ProbeOutcome.reason?, hnone] at h
        cases h
      · rw [ProbeOutcome.reason?, hsome] at h
        cases h
        exact ⟨fault, rfl, hfirst⟩
  · obtain ⟨hbytes, fault, hfault, hdial⟩ := check_of_not_reaches hreaches
    refine ⟨?_, hreason _, hknown _, hbytes ▸ Nat.zero_le _, fun address _ => ?_,
      fun _ h => absurd h hreaches⟩
    · rw [ProbeOutcome.health_eq_healthy_iff, hfault]
      exact iff_of_false nofun fun h => hreaches h.1
    · obtain ⟨detail, hdetail⟩ := hdial address
      rw [ProbeOutcome.reason?, hfault]
      exact ⟨detail, congrArg some hdetail⟩

/-- An endpoint has an outcome, and the right one, unless it is reached and more may be read than a
buffer can hold. -/
theorem exists_classifies_iff (options : ConncheckOptions) (endpoint : Endpoint) :
    (∃ o, check? options endpoint = some o ∧ Classifies options endpoint o) ↔
      (Reaches options endpoint → options.maxRead ≤ maxBuffer) := by
  rw [check?, ← isReached_iff]
  split
  · next h =>
    rw [Bool.and_eq_true, decide_eq_true_eq] at h
    refine iff_of_false nofun fun hroom => ?_
    exact Nat.not_le.mpr h.2 (hroom h.1)
  · next h =>
    rw [Bool.and_eq_true, decide_eq_true_eq, not_and, Nat.not_lt] at h
    exact iff_of_true ⟨_, rfl, classifies_check options endpoint⟩ h

/-- An endpoint that closes at once is reached and lets no read fail, and still has no outcome if as
much may be read as a number of 64 bits can say. -/
theorem no_outcome_of_greatest_maxRead :
    let options : ConncheckOptions := { maxRead := UInt64.size - 1 }
    let endpoint : Endpoint := ⟨.connected ⟨0⟩, [(⟨0⟩, .closed)]⟩
    Reaches options endpoint ∧
      (∀ i fault,
        ¬ ReadFails (max 1 options.maxRead) options.readWait endpoint.arrivals i fault) ∧
      check? options endpoint = none := by
  intro options endpoint
  refine ⟨⟨⟨0⟩, rfl, Nat.zero_le _⟩, fun i fault h => ?_, by decide⟩
  cases i with
  | zero => cases (readFails_zero.mp h).2.2
  | succ i => exact (readFails_succ.mp h).2.1 rfl

/-- With the usual options every check has an outcome. -/
theorem check?_default (endpoint : Endpoint) : check? {} endpoint = some (check {} endpoint) := by
  have hroom : decide (maxBuffer < ({} : ConncheckOptions).maxRead) = false := by decide
  rw [check?, hroom, Bool.and_false, if_neg Bool.false_ne_true]

end Probe
end SshTunnels
