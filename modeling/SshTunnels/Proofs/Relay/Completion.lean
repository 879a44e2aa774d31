import SshTunnels.Proofs.Relay.Accounting

/-!
# The end of a relay

A relay ends with the first of its directions. What a direction's own answers say of its end
(`Finishes`) is all that its phase says (`Run.reached`). From the moment a direction has ended the
relay has nothing before it but two shutdowns, of A's write side and then of B's, whatever comes of
them and whatever the other direction was waiting for (`Course`); then it returns what the end of
that direction comes to (`completes_of_run`).
-/

namespace SshTunnels
namespace Relay

/-! ## What happens to a relay -/

/-- What happens between a relay and its streams: the direction from `source` is answered, by that
stream if it reads and by the other one if it writes or flushes; or the shutdown of a write side is
done, well or not. -/
inductive Event where
  | answered (source : Side) (answer : Answer)
  | shut (side : Side) (result : Except IoError Unit)

/-- The relay waits for this: while it copies, for the answers to both directions; afterwards for
A's shutdown, and then for B's, whatever comes of them. -/
inductive Awaits (r : Relay) : Event → Prop where
  | answered {source : Side} {answer : Answer} : r.stage = .copying →
      Fits (r.direction source).phase answer → Awaits r (.answered source answer)
  | shutA {fault : Option IoError} {result : Except IoError Unit} :
      r.stage = .closingA fault → Awaits r (.shut .a result)
  | shutB {fault : Option IoError} {result : Except IoError Unit} :
      r.stage = .closingB fault → Awaits r (.shut .b result)

/-- The relay after an event. -/
def after (r : Relay) : Event → Relay
  | .answered source answer => r.step source answer
  | .shut _ _ => r.shutdownDone

/-- `Run h r`: the events of `h`, the latest first, have brought a relay from its start to `r`. -/
inductive Run : List Event → Relay → Prop where
  | start : Run [] .start
  | next {h : List Event} {r : Relay} {event : Event} : Run h r → r.Awaits event →
      Run (event :: h) (r.after event)

/-- The answers to the direction from `source`, the latest first. -/
def answers (source : Side) (h : List Event) : List Answer :=
  h.filterMap fun event => match event with
    | .answered s answer => if s = source then some answer else none
    | .shut _ _ => none

/-- How often the write side of a stream was shut down. -/
def shutdowns (side : Side) (h : List Event) : Nat :=
  h.countP fun event => match event with
    | .answered _ _ => false
    | .shut s _ => s = side

/-- `Finishes answers fault`: a direction that was answered so, the latest first, has come to its
end, without a fault or with one. -/
inductive Finishes : List Answer → Option IoError → Prop where
  /-- The source came to its end, and the flush after that was done. -/
  | endOfFile {before : List Answer} : Finishes (.flushed :: .bytes [] :: before) none
  /-- A read, a write or a flush failed. -/
  | failed {e : IoError} {before : List Answer} : Finishes (.fault e :: before) (some e)
  /-- A write took nothing. -/
  | tookNothing {before : List Answer} :
      Finishes (.took 0 :: before) (some (.plain .writeZero))

/-- The fault says no more than that the peer has gone. -/
def MeansGone (e : IoError) : Prop :=
  e.kind = .brokenPipe ∨ e.kind = .notConnected ∨ e.kind = .connectionReset ∨
    e.kind = .connectionAborted

/-- What a relay returns when the direction that ended first has ended so. -/
inductive Returns : Option IoError → Except SshError Unit → Prop where
  | clean : Returns none (.ok ())
  | gone {e : IoError} : MeansGone e → Returns (some e) (.ok ())
  | failed {e : IoError} : ¬ MeansGone e → Returns (some e) (.error (.io e))

variable {r : Relay} {h later : List Event} {event : Event} {source side : Side} {a : Answer}
  {as : List Answer} {d : Direction} {fault : Option IoError}

/-! ## One direction -/

/-- The phase of a direction as its answers tell it: whether it flushes for the last time, and
whether and how it has ended. -/
structure Reached (as : List Answer) (phase : Phase) : Prop where
  lastFlush_iff : phase = .lastFlush ↔ ∃ before, as = .bytes [] :: before
  ended_iff : ∀ fault, phase = .ended fault ↔ Finishes as fault

theorem Finishes.unique {fault' : Option IoError} (hf : Finishes as fault)
    (hf' : Finishes as fault') : fault = fault' := by
  cases hf <;> cases hf' <;> rfl

/-- A direction that neither has ended nor flushes for the last time. -/
theorem reached_of_open {phase : Phase} (hlast : phase ≠ .lastFlush)
    (hopen : ∀ fault, phase ≠ .ended fault) (hmore : ∀ before, as ≠ .bytes [] :: before)
    (hnot : ∀ fault, ¬ Finishes as fault) : Reached as phase where
  lastFlush_iff := ⟨fun heq => absurd heq hlast, fun ⟨before, heq⟩ => absurd heq (hmore before)⟩
  ended_iff fault := ⟨fun heq => absurd heq (hopen fault), fun hf => absurd hf (hnot fault)⟩

theorem reached_of_finishes (hf : Finishes as fault) : Reached as (.ended fault) := by
  constructor
  · constructor
    · intro hlast
      cases hlast
    · rintro ⟨before, rfl⟩
      cases hf
  · intro fault'
    constructor
    · intro heq
      cases heq
      exact hf
    · intro hf'
      rw [hf.unique hf']

theorem reached_start : Reached [] Direction.start.phase := by
  apply reached_of_open
  · intro hlast
    cases hlast
  · intro fault hended
    cases hended
  · intro before heq
    cases heq
  · intro fault hf
    cases hf

theorem Reached.step (hr : Reached as d.phase) (hf : Fits d.phase a) :
    Reached (a :: as) (d.step a).phase := by
  obtain ⟨phase, copied⟩ := d
  cases hf with
  | @gives chunk hsize =>
    have hnot : ∀ fault, ¬ Finishes (.bytes chunk :: as) fault := by
      intro fault hf
      cases hf
    simp only [Direction.step]
    split
    · next hend =>
      subst hend
      constructor
      · exact ⟨fun _ => ⟨as, rfl⟩, fun _ => rfl⟩
      · intro fault
        constructor
        · intro hended
          cases hended
        · intro hf
          exact absurd hf (hnot fault)
    · next hmore =>
      apply reached_of_open
      · intro hlast
        cases hlast
      · intro fault hended
        cases hended
      · intro before heq
        cases heq
        exact hmore rfl
      · exact hnot
  | @takes left size n hn =>
    simp only [Direction.step]
    split
    · next hzero =>
      subst hzero
      exact reached_of_finishes .tookNothing
    · next hsome =>
      -- the rest of the chunk, or the flush after it
      apply reached_of_open
      · split <;> intro hlast <;> cases hlast
      · intro fault
        split <;> intro hended <;> cases hended
      · intro before heq
        cases heq
      · intro fault hf
        cases hf
        exact hsome rfl
  | @flushes size =>
    apply reached_of_open
    · intro hlast
      cases hlast
    · intro fault hended
      cases hended
    · intro before heq
      cases heq
    · intro fault hf
      -- a flush ends a direction only after the end of its source, and this one follows a chunk
      cases hf
      cases hr.lastFlush_iff.mpr ⟨_, rfl⟩
  | flushesLast =>
    obtain ⟨before, rfl⟩ := hr.lastFlush_iff.mp rfl
    exact reached_of_finishes .endOfFile
  | @fails _ e hne =>
    have hended : (Direction.step ⟨phase, copied⟩ (.fault e)).phase = .ended (some e) := by
      cases phase with
      | ended fault => exact absurd rfl (hne fault)
      | reading => rfl
      | writing left size => rfl
      | flushing size => rfl
      | lastFlush => rfl
    rw [hended]
    exact reached_of_finishes .failed

/-! ## The whole relay -/

theorem answers_answered (side source : Side) (a : Answer) (h : List Event) :
    answers side (.answered source a :: h) =
      if source = side then a :: answers side h else answers side h := by
  rw [answers, List.filterMap_cons]
  split
  · next hnone =>
    rw [if_neg fun heq => by simp [heq] at hnone]
    rfl
  · next b hsome =>
    simp only [Option.ite_none_right_eq_some, Option.some.injEq] at hsome
    obtain ⟨heq, rfl⟩ := hsome
    rw [if_pos heq]
    rfl

@[simp] theorem answers_shut (source side : Side) (result : Except IoError Unit) (h : List Event) :
    answers source (.shut side result :: h) = answers source h :=
  rfl

@[simp] theorem shutdowns_answered (side source : Side) (a : Answer) (h : List Event) :
    shutdowns side (.answered source a :: h) = shutdowns side h := by
  simp [shutdowns]

theorem shutdowns_shut (side s : Side) (result : Except IoError Unit) (h : List Event) :
    shutdowns side (.shut s result :: h) = shutdowns side h + if s = side then 1 else 0 := by
  simp [shutdowns, List.countP_cons]

/-- The phase of each direction is what its answers tell. -/
theorem Run.reached (hr : Run h r) : ∀ source,
    Reached (answers source h) (r.direction source).phase := by
  induction hr with
  | start =>
    intro source
    cases source <;> exact reached_start
  | @next h r event _ hawaits ih =>
    intro side
    cases hawaits with
    | @answered source a hstage hfits =>
      rw [after, direction_step hstage, answers_answered]
      by_cases heq : side = source
      · subst heq
        rw [if_pos rfl, if_pos rfl]
        exact (ih side).step hfits
      · rw [if_neg heq, if_neg (Ne.symm heq)]
        exact ih side
    | shutA _ =>
      rw [after, direction_shutdownDone, answers_shut]
      exact ih side
    | shutB _ =>
      rw [after, direction_shutdownDone, answers_shut]
      exact ih side

/-- An answer that does not end its direction leaves the relay copying. -/
theorem stage_step_of_not_ended (hr : r.stage = .copying)
    (hd : ∀ fault, ((r.direction source).step a).phase ≠ .ended fault) :
    (r.step source a).stage = .copying := by
  rw [Relay.step, hr]
  simp only
  cases source <;> exact hr

/-- An answer that ends its direction settles the outcome. -/
theorem stage_step_of_ended (hr : r.stage = .copying)
    (hd : ((r.direction source).step a).phase = .ended fault) :
    (r.step source a).stage = .closingA (outcome fault) := by
  rw [Relay.step, hr]
  simp only [hd]

/-- Once a relay has stopped copying, answers do not matter. -/
theorem step_of_not_copying (hr : r.stage ≠ .copying) (source : Side) (a : Answer) :
    r.step source a = r := by
  rw [Relay.step]
  split
  · next heq => exact absurd heq hr
  · rfl

/-- The stages after the copying, and the shutdowns that have been done in each. -/
inductive Closing (fault : Option IoError) (h : List Event) (r : Relay) : Prop where
  | first : r.stage = .closingA fault → shutdowns .a h = 0 → shutdowns .b h = 0 → Closing fault h r
  | second : r.stage = .closingB fault → shutdowns .a h = 1 → shutdowns .b h = 0 → Closing fault h r
  | returned : r.stage = .returned fault → shutdowns .a h = 1 → shutdowns .b h = 1 →
      Closing fault h r

/-- The course of a relay: both directions go on and nothing is shut down; or one direction has
ended, the other has not, and the shutdowns take their turn. -/
inductive Course (h : List Event) (r : Relay) : Prop where
  | copying : r.stage = .copying → (∀ source fault, ¬ Finishes (answers source h) fault) →
      (∀ side, shutdowns side h = 0) → Course h r
  | ended {source : Side} {fault : Option IoError} : Finishes (answers source h) fault →
      (∀ fault', ¬ Finishes (answers source.other h) fault') → Closing (outcome fault) h r →
      Course h r

theorem Closing.stage_ne (hc : Closing fault h r) : r.stage ≠ .copying := by
  intro hcopying
  cases hc with
  | first hstage _ _ => cases hcopying.symm.trans hstage
  | second hstage _ _ => cases hcopying.symm.trans hstage
  | returned hstage _ _ => cases hcopying.symm.trans hstage

/-- A shutdown that is done makes room for the next one, or for the return. -/
theorem Closing.shut {result : Except IoError Unit} (hc : Closing fault h r)
    (hawaits : r.Awaits (.shut side result)) :
    Closing fault (.shut side result :: h) r.shutdownDone := by
  cases hawaits with
  | shutA hs =>
    cases hc with
    | first hstage ha hb =>
      refine .second ?_ ?_ ?_
      · rw [shutdownDone, hstage]
      · rw [shutdowns_shut, ha, if_pos rfl]
      · rw [shutdowns_shut, hb, if_neg (by decide)]
    | second hstage _ _ => cases hs.symm.trans hstage
    | returned hstage _ _ => cases hs.symm.trans hstage
  | shutB hs =>
    cases hc with
    | first hstage _ _ => cases hs.symm.trans hstage
    | second hstage ha hb =>
      refine .returned ?_ ?_ ?_
      · rw [shutdownDone, hstage]
      · rw [shutdowns_shut, ha, if_neg (by decide)]
      · rw [shutdowns_shut, hb, if_pos rfl]
    | returned hstage _ _ => cases hs.symm.trans hstage

/-- An answer lets its direction go on, or ends it as the first one. -/
theorem Course.answered (hc : Course h r) (hr : Run h r) (hstage : r.stage = .copying)
    (hfits : Fits (r.direction source).phase a) :
    Course (.answered source a :: h) (r.step source a) := by
  cases hc with
  | ended _ _ hclosing => exact absurd hstage hclosing.stage_ne
  | copying _ hopen hnone =>
    have hphase : ∀ fault, ((r.direction source).step a).phase = .ended fault ↔
        Finishes (a :: answers source h) fault := ((hr.reached source).step hfits).ended_iff
    have hsame : answers source (.answered source a :: h) = a :: answers source h := by
      rw [answers_answered, if_pos rfl]
    have hother : ∀ side, source ≠ side →
        answers side (.answered source a :: h) = answers side h := by
      intro side hne
      rw [answers_answered, if_neg hne]
    by_cases hends : ∃ fault, ((r.direction source).step a).phase = .ended fault
    · obtain ⟨fault, hends⟩ := hends
      refine @Course.ended _ _ source fault ?_ (fun fault' => ?_) ?_
      · rw [hsame]
        exact (hphase fault).mp hends
      · rw [hother source.other (by cases source <;> nofun)]
        exact hopen source.other fault'
      · refine .first (stage_step_of_ended hstage hends) ?_ ?_
        · rw [shutdowns_answered, hnone]
        · rw [shutdowns_answered, hnone]
    · have hgoesOn : ∀ fault, ((r.direction source).step a).phase ≠ .ended fault :=
        fun fault heq => hends ⟨fault, heq⟩
      refine .copying (stage_step_of_not_ended hstage hgoesOn) (fun side fault hfin => ?_)
        fun side => ?_
      · by_cases heq : source = side
        · subst heq
          rw [hsame] at hfin
          exact hgoesOn fault ((hphase fault).mpr hfin)
        · rw [hother side heq] at hfin
          exact hopen side fault hfin
      · rw [shutdowns_answered]
        exact hnone side

/-- While a relay copies, it waits for no shutdown. -/
theorem Course.shut {result : Except IoError Unit} (hc : Course h r)
    (hawaits : r.Awaits (.shut side result)) : Course (.shut side result :: h) r.shutdownDone := by
  cases hc with
  | ended hfin hopen hclosing => exact .ended hfin hopen (hclosing.shut hawaits)
  | copying hcopying _ _ =>
    cases hawaits with
    | shutA hstage => cases hcopying.symm.trans hstage
    | shutB hstage => cases hcopying.symm.trans hstage

/-- Every run keeps to the course. -/
theorem Run.course (hr : Run h r) : Course h r := by
  induction hr with
  | start => exact .copying rfl (fun source fault => by cases source <;> nofun) fun side => rfl
  | next hr hawaits ih =>
    cases hawaits with
    | answered hstage hfits => exact ih.answered hr hstage hfits
    | shutA hstage => exact ih.shut (.shutA hstage)
    | shutB hstage => exact ih.shut (.shutB hstage)

/-- Only one direction has ended, and in one way. -/
theorem eq_of_finishes {fault' : Option IoError} (hfin : Finishes (answers source h) fault)
    (hopen : ∀ fault', ¬ Finishes (answers source.other h) fault')
    (hf : Finishes (answers side h) fault') : side = source ∧ fault' = fault := by
  by_cases heq : side = source
  · subst heq
    exact ⟨rfl, hf.unique hfin⟩
  · have hother : side = source.other := by
      cases side <;> cases source <;> first | rfl | exact absurd rfl heq
    rw [hother] at hf
    exact absurd hf (hopen fault')

theorem Course.stage_ne (hc : Course h r) (hf : Finishes (answers source h) fault) :
    r.stage ≠ .copying := by
  cases hc with
  | copying _ hopen _ => exact absurd hf (hopen source fault)
  | ended _ _ hclosing => exact hclosing.stage_ne

theorem answers_append_of_shuts (source : Side)
    (hshuts : ∀ event ∈ later, ∃ side result, event = .shut side result) :
    answers source (later ++ h) = answers source h := by
  induction later with
  | nil => rfl
  | cons event later ih =>
    obtain ⟨side, result, rfl⟩ := hshuts event List.mem_cons_self
    exact ih fun e he => hshuts e (List.mem_cons_of_mem _ he)

/-- Nothing but shutdowns follows the end of a direction. -/
theorem Run.shuts_of_finishes {r' : Relay} (hf : Finishes (answers source h) fault)
    (hr : Run (later ++ h) r') : ∀ event ∈ later, ∃ side result, event = .shut side result := by
  induction later generalizing r' with
  | nil => nofun
  | cons event later ih =>
    cases hr with
    | @next _ r _ hr hawaits =>
      have hlater := ih hr
      intro e he
      rcases List.mem_cons.mp he with rfl | he
      · have hf' : Finishes (answers source (later ++ h)) fault := by
          rw [answers_append_of_shuts source hlater]
          exact hf
        cases hawaits with
        | answered hstage _ => exact absurd hstage (hr.course.stage_ne hf')
        | shutA _ => exact ⟨_, _, rfl⟩
        | shutB _ => exact ⟨_, _, rfl⟩
      · exact hlater e he

/-! ## What a relay comes to -/

theorem isGracefulClose_iff (e : IoError) : e.kind.isGracefulClose = true ↔ MeansGone e := by
  rw [MeansGone]
  cases e.kind <;> simp [IoKind.isGracefulClose]

theorem result?_of_copying (hs : r.stage = .copying) : r.result? = none := by
  rw [result?, hs]

theorem returned_of_result? {res : Except SshError Unit} (hres : r.result? = some res) :
    ∃ fault, r.stage = .returned fault := by
  rw [result?] at hres
  split at hres
  · next heq => exact ⟨none, heq⟩
  · next e heq => exact ⟨some e, heq⟩
  · cases hres

theorem returns_of_result? {res : Except SshError Unit}
    (hstage : r.stage = .returned (outcome fault)) (hres : r.result? = some res) :
    Returns fault res := by
  rw [result?, hstage] at hres
  cases fault with
  | none =>
    cases hres
    exact .clean
  | some e =>
    rw [outcome] at hres
    by_cases hgone : MeansGone e
    · rw [if_pos ((isGracefulClose_iff e).mpr hgone)] at hres
      cases hres
      exact .gone hgone
    · rw [if_neg fun hclose => hgone ((isGracefulClose_iff e).mp hclose)] at hres
      cases hres
      exact .failed hgone

theorem awaits_iff_of_closingA (hs : r.stage = .closingA fault) :
    r.Awaits event ↔ ∃ result, event = .shut .a result := by
  constructor
  · intro hawaits
    cases hawaits with
    | answered hstage _ => cases hs.symm.trans hstage
    | shutA _ => exact ⟨_, rfl⟩
    | shutB hstage => cases hs.symm.trans hstage
  · rintro ⟨result, rfl⟩
    exact .shutA hs

theorem awaits_iff_of_closingB (hs : r.stage = .closingB fault) :
    r.Awaits event ↔ ∃ result, event = .shut .b result := by
  constructor
  · intro hawaits
    cases hawaits with
    | answered hstage _ => cases hs.symm.trans hstage
    | shutA hstage => cases hs.symm.trans hstage
    | shutB _ => exact ⟨_, rfl⟩
  · rintro ⟨result, rfl⟩
    exact .shutB hs

theorem not_awaits_of_returned (hs : r.stage = .returned fault) : ¬ r.Awaits event := by
  intro hawaits
  cases hawaits with
  | answered hstage _ => cases hs.symm.trans hstage
  | shutA hstage => cases hs.symm.trans hstage
  | shutB hstage => cases hs.symm.trans hstage

namespace Closing

theorem shutdowns_le (hc : Closing fault h r) (side : Side) : shutdowns side h ≤ 1 := by
  cases hc with
  | first _ ha hb => cases side <;> omega
  | second _ ha hb => cases side <;> omega
  | returned _ ha hb => cases side <;> omega

theorem awaits (hc : Closing fault h r) (hres : r.result? = none) :
    ∃ side, shutdowns side h = 0 ∧
      ∀ event, r.Awaits event ↔ ∃ result, event = .shut side result := by
  cases hc with
  | first hstage ha _ => exact ⟨.a, ha, fun event => awaits_iff_of_closingA hstage⟩
  | second hstage _ hb => exact ⟨.b, hb, fun event => awaits_iff_of_closingB hstage⟩
  | returned hstage _ _ =>
    rw [result?, hstage] at hres
    cases fault <;> cases hres

theorem returned_iff (hc : Closing fault h r) :
    (∃ res, r.result? = some res) ↔ ∀ side, shutdowns side h = 1 := by
  rw [result?]
  cases hc with
  | first hstage ha _ =>
    rw [hstage]
    exact ⟨nofun, fun hall => nomatch ha.symm.trans (hall .a)⟩
  | second hstage _ hb =>
    rw [hstage]
    exact ⟨nofun, fun hall => nomatch hb.symm.trans (hall .b)⟩
  | returned hstage ha hb =>
    rw [hstage]
    refine ⟨fun _ side => ?_, fun _ => ?_⟩
    · cases side with
      | a => exact ha
      | b => exact hb
    · cases fault with
      | none => exact ⟨_, rfl⟩
      | some e => exact ⟨_, rfl⟩

theorem settled {fault' : Option IoError} (hc : Closing fault h r)
    (hs : r.stage = .returned fault') : r.stage = .returned fault := by
  cases hc with
  | first hstage _ _ => cases hs.symm.trans hstage
  | second hstage _ _ => cases hs.symm.trans hstage
  | returned hstage _ _ => exact hstage

end Closing

/-- How a relay that has come to `r` by the events of `h` completes. -/
structure Completes (h : List Event) (r : Relay) : Prop where
  /-- Before a direction has ended, nothing is shut down or returned. -/
  goesOn : (∀ source fault, ¬ Finishes (answers source h) fault) →
    (∀ side, shutdowns side h = 0) ∧ r.result? = none
  /-- One direction ends, and in one way; where both are about to end, it may be either. -/
  once : ∀ {s s' fault fault'}, Finishes (answers s h) fault → Finishes (answers s' h) fault' →
    s = s' ∧ fault = fault'
  /-- Once a direction has ended, all that still happens is shutdowns: nothing is read, written or
  flushed any more for either direction. -/
  quiet : ∀ {source fault}, Finishes (answers source h) fault → ∀ later r', Run (later ++ h) r' →
    ∀ event ∈ later, ∃ side result, event = .shut side result
  /-- Nor would an answer that still came change anything. -/
  deaf : ∀ {source fault}, Finishes (answers source h) fault → ∀ s a, r.step s a = r
  /-- No write side is shut down twice. -/
  shutOnce : ∀ side, shutdowns side h ≤ 1
  /-- Once a direction has ended, the relay waits for nothing but the shutdown of a write side that
  has not been shut down, whatever comes of it, until it has returned. -/
  closes : ∀ {source fault}, Finishes (answers source h) fault → r.result? = none →
    ∃ side, shutdowns side h = 0 ∧
      ∀ event, r.Awaits event ↔ ∃ result, event = .shut side result
  /-- It has returned as soon as both shutdowns are done, and not before. -/
  returned_iff : (∃ res, r.result? = some res) ↔ ∀ side, shutdowns side h = 1
  /-- Then it waits for nothing. -/
  rests : (∃ res, r.result? = some res) → ∀ event, ¬ r.Awaits event
  /-- It returns what the end of the direction that ended comes to. -/
  result : ∀ {res}, r.result? = some res →
    ∃ source fault, Finishes (answers source h) fault ∧ Returns fault res

/-- A relay that copies. -/
theorem completes_of_copying (hstage : r.stage = .copying)
    (hopen : ∀ source fault, ¬ Finishes (answers source h) fault)
    (hnone : ∀ side, shutdowns side h = 0) : Completes h r where
  goesOn _ := ⟨hnone, result?_of_copying hstage⟩
  once hf := absurd hf (hopen _ _)
  quiet hf := absurd hf (hopen _ _)
  deaf hf := absurd hf (hopen _ _)
  shutOnce side := by
    rw [hnone side]
    exact Nat.zero_le 1
  closes hf := absurd hf (hopen _ _)
  returned_iff := by
    rw [result?_of_copying hstage]
    exact ⟨nofun, fun hall => nomatch (hnone .a).symm.trans (hall .a)⟩
  rests := by
    rw [result?_of_copying hstage]
    nofun
  result := by
    rw [result?_of_copying hstage]
    nofun

/-- A relay of which a direction has ended. -/
theorem completes_of_ended (hfin : Finishes (answers source h) fault)
    (hopen : ∀ fault', ¬ Finishes (answers source.other h) fault')
    (hclosing : Closing (outcome fault) h r) : Completes h r where
  goesOn hnot := absurd hfin (hnot source fault)
  once hf hf' := by
    obtain ⟨rfl, rfl⟩ := eq_of_finishes hfin hopen hf
    obtain ⟨rfl, rfl⟩ := eq_of_finishes hfin hopen hf'
    exact ⟨rfl, rfl⟩
  quiet hf later r' hr' := hr'.shuts_of_finishes hf
  deaf _ s a := step_of_not_copying hclosing.stage_ne s a
  shutOnce := hclosing.shutdowns_le
  closes _ hres := hclosing.awaits hres
  returned_iff := hclosing.returned_iff
  rests := by
    rintro ⟨res, hres⟩ event
    obtain ⟨fault', hstage⟩ := returned_of_result? hres
    exact not_awaits_of_returned hstage
  result := by
    intro res hres
    obtain ⟨fault', hstage⟩ := returned_of_result? hres
    exact ⟨source, fault, hfin, returns_of_result? (hclosing.settled hstage) hres⟩

/-- Whatever the streams answer, in any order, and whatever the shutdowns come to, a relay ends with
the first direction that ends. -/
theorem completes_of_run (hr : Run h r) : Completes h r := by
  cases hr.course with
  | copying hstage hopen hnone => exact completes_of_copying hstage hopen hnone
  | ended hfin hopen hclosing => exact completes_of_ended hfin hopen hclosing

/-- B resets in the middle of a chunk from A, and neither shutdown goes well: the relay returns as
after a clean end. -/
theorem peer_gone_midway : ∃ h r, Run h r ∧ Completes h r ∧
    answers .a h = [.took 2, .bytes [1, 2, 3]] ∧
    Finishes (answers .b h) (some (.plain .connectionReset)) ∧
    shutdowns .a h = 1 ∧ shutdowns .b h = 1 ∧ r.result? = some (.ok ()) := by
  have h₁ := Run.start.next (@Awaits.answered _ .a (.bytes [1, 2, 3]) rfl (.gives (by decide)))
  have h₂ := h₁.next (@Awaits.answered _ .a (.took 2) rfl (.takes (by decide)))
  have h₃ := h₂.next (@Awaits.answered _ .b (.fault (.plain .connectionReset)) rfl (.fails nofun))
  have h₄ := h₃.next (@Awaits.shutA _ _ (.error (.plain .notConnected)) rfl)
  have h₅ := h₄.next (@Awaits.shutB _ _ (.error (.plain .brokenPipe)) rfl)
  exact ⟨_, _, h₅, completes_of_run h₅, rfl, .failed, rfl, rfl, rfl⟩

end Relay
end SshTunnels
