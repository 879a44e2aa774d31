import SshTunnels.Proofs.Text.Padded
import SshTunnels.Proofs.Time.Calendar
import SshTunnels.Time.Stored

/-!
# The order of stored times

Stored times are compared as texts. For the years 0 to 9999 that is the order of the times
(`Civil.stored_lt_iff`). The date and the time of day have fields of fixed width, and a leap second
is the second sixty of a minute, after all others of it. The fraction has no fixed width: it is
written in groups of three digits until only zeros are left, and then comes a plus sign, which is
before every digit and before the point.
-/

namespace SshTunnels
namespace Timestamp

open Text

/-- The first time is the earlier one. -/
def Before (a b : Timestamp) : Prop :=
  a.seconds < b.seconds ∨ a.seconds = b.seconds ∧ a.nanos < b.nanos

theorem before_trichotomy (a b : Timestamp) : a.Before b ∨ a = b ∨ b.Before a := by
  obtain ⟨s, n⟩ := a
  obtain ⟨s', n'⟩ := b
  simp only [Before, mk.injEq]
  omega

/-- The date that a time shows. -/
def date (t : Timestamp) : CivilDate :=
  CivilDate.ofDays (t.seconds / 86400)

/-- The time is of a year with four digits, and not in a leap second. -/
structure Plain (t : Timestamp) : Prop where
  year : 0 ≤ t.date.year ∧ t.date.year ≤ 9999
  nanos : t.nanos < 1000000000

instance (t : Timestamp) : Decidable t.Plain :=
  decidable_of_iff ((0 ≤ t.date.year ∧ t.date.year ≤ 9999) ∧ t.nanos < 1000000000)
    ⟨fun h => ⟨h.1, h.2⟩, fun h => ⟨h.year, h.nanos⟩⟩

/-- The time is of a year with four digits; if it is in a leap second, that is the last second of
its minute. A leap second anywhere else in a minute has the text of the next second; such times,
which there are in no calendar, are left out. -/
structure Civil (t : Timestamp) : Prop where
  year : 0 ≤ t.date.year ∧ t.date.year ≤ 9999
  nanos : t.nanos < 1000000000 ∨ t.seconds % 60 = 59 ∧ t.nanos < 2000000000

instance (t : Timestamp) : Decidable t.Civil :=
  decidable_of_iff ((0 ≤ t.date.year ∧ t.date.year ≤ 9999) ∧
    (t.nanos < 1000000000 ∨ t.seconds % 60 = 59 ∧ t.nanos < 2000000000))
    ⟨fun h => ⟨h.1, h.2⟩, fun h => ⟨h.year, h.nanos⟩⟩

theorem Plain.civil {t : Timestamp} (h : t.Plain) : t.Civil :=
  ⟨h.year, .inl h.nanos⟩

/-! ## Fractions -/

/-- The text of universal time. -/
def zone : List Char := "+00:00".toList

/-- The digits of a number in groups of three until only zeros are left, and then the zone. -/
def grouped : (groups : Nat) → (n : Nat) → List Char
  | 0, _ => zone
  | groups + 1, n =>
    if n = 0 then zone else digits 10 3 (n / 1000 ^ groups) ++ grouped groups (n % 1000 ^ groups)

/-- The zone comes before all that begins with a digit. -/
theorem zone_lt_digits (n : Nat) (x : List Char) : zone < digits 10 3 n ++ x := by
  have hplus : ∀ k < 10, '+' < digitChar k := by decide
  have hzone : zone = '+' :: "00:00".toList := rfl
  have hdigits : digits 10 3 n =
      [digitChar (n / 10 / 10 % 10), digitChar (n / 10 % 10), digitChar (n % 10)] := rfl
  rw [hzone, hdigits, List.cons_append, List.cons_lt_cons_iff]
  exact .inl (hplus _ (Nat.mod_lt _ (by decide)))

theorem grouped_lt {groups a b : Nat} (h : a < b) (hb : b < 1000 ^ groups) :
    grouped groups a < grouped groups b := by
  induction groups generalizing a b with
  | zero => omega
  | succ groups ih =>
    have hpos : 0 < 1000 ^ groups := Nat.pow_pos (by decide)
    rw [grouped, grouped, if_neg (show b ≠ 0 by omega)]
    split
    · exact zone_lt_digits _ _
    · -- the first group decides, or it is the same and what follows it decides
      refine digits_append_lt ?_ ?_
      · rw [Nat.div_lt_iff_lt_mul hpos]
        rw [Nat.pow_succ] at hb
        omega
      · rcases Nat.lt_or_eq_of_le (Nat.div_le_div_right (c := 1000 ^ groups) (Nat.le_of_lt h)) with
          hlt | heq
        · exact .inl hlt
        · refine .inr ⟨heq, ih ?_ (Nat.mod_lt _ hpos)⟩
          have ha := Nat.div_add_mod a (1000 ^ groups)
          have hb := Nat.div_add_mod b (1000 ^ groups)
          rw [heq] at ha
          omega

theorem grouped_zero (groups : Nat) : grouped groups 0 = zone := by
  cases groups with
  | zero => rfl
  | succ groups => rw [grouped, if_pos rfl]

theorem digits_micros (n : Nat) :
    digits 10 6 (n / 1000) = digits 10 3 (n / 1000000) ++ digits 10 3 (n % 1000000 / 1000) := by
  have hmillis : n / 1000 / 1000 = n / 1000000 := Nat.div_div_eq_div_mul n 1000 1000
  have hmicros : n / 1000 % 1000 = n % 1000000 / 1000 := by omega
  rw [← hmillis, ← hmicros]
  exact digits_add 10 3 3 (n / 1000)

/-- A fraction and the zone, in groups. -/
theorem toList_fraction {n : Nat} (h : n < 1000000000) :
    (fraction n).toList ++ zone = if n = 0 then zone else '.' :: grouped 3 n := by
  have hpoint : ∀ text : String, ("." ++ text).toList = '.' :: text.toList :=
    fun text => String.toList_append
  unfold fraction
  split
  · rfl
  · next hn =>
    have hgroups : grouped 3 n = digits 10 3 (n / 1000000) ++ grouped 2 (n % 1000000) := if_neg hn
    rw [hgroups]
    split
    · next hmillis =>
      rw [hpoint, toList_padded (by decide) (by omega), hmillis, grouped_zero]
      rfl
    · next hmillis =>
      have hgroups : grouped 2 (n % 1000000) =
          digits 10 3 (n % 1000000 / 1000) ++ grouped 1 (n % 1000000 % 1000) := if_neg hmillis
      have hrest : n % 1000000 % 1000 = n % 1000 := by omega
      rw [hgroups, hrest]
      split
      · next hmicros =>
        rw [hpoint, toList_padded (by decide) (by omega), hmicros, grouped_zero, digits_micros,
          List.cons_append, List.append_assoc]
      · next hmicros =>
        have hgroups : grouped 1 (n % 1000) = digits 10 3 (n % 1000) ++ zone := by
          rw [grouped, if_neg hmicros, Nat.pow_zero, Nat.div_one, grouped]
        have hsplit : digits 10 9 n = digits 10 6 (n / 1000) ++ digits 10 3 (n % 1000) :=
          digits_add 10 6 3 n
        rw [hpoint, toList_padded (by decide) h, hgroups, hsplit, digits_micros, List.cons_append,
          List.append_assoc, List.append_assoc]

/-! ## Whole texts -/

/-- A date of a year with four digits. -/
def dateText (date : CivilDate) : List Char :=
  digits 10 4 date.year.toNat ++ '-' :: (digits 10 2 date.month ++ '-' :: digits 10 2 date.day)

theorem dateText_lt {a b : CivilDate} (h : a.Before b) (ha : 0 ≤ a.year) (hb : b.year ≤ 9999)
    (hmonth : b.month < 100) (hday : b.day < 100) : dateText a < dateText b := by
  refine digits_append_lt (by omega) ?_
  rcases h with hyear | ⟨hyear, hrest⟩
  · exact .inl (by omega)
  · refine .inr ⟨by rw [hyear], List.cons_lt_cons_iff.mpr (.inr ⟨rfl, ?_⟩)⟩
    refine digits_append_lt hmonth ?_
    rcases hrest with hlt | ⟨heq, hlt⟩
    · exact .inl hlt
    · exact .inr ⟨heq, List.cons_lt_cons_iff.mpr (.inr ⟨rfl, digits_lt hlt hday⟩)⟩

/-- The time of day, in seconds. -/
def timeOfDay (t : Timestamp) : Nat :=
  (t.seconds % 86400).toNat

theorem timeOfDay_lt (t : Timestamp) : t.timeOfDay < 86400 := by
  unfold timeOfDay
  omega

/-- One more second for a time in a leap second. -/
def leap (t : Timestamp) : Nat :=
  if 1000000000 ≤ t.nanos then 1 else 0

theorem leap_le_one (t : Timestamp) : t.leap ≤ 1 := by
  unfold leap
  split <;> omega

/-- The time of day as it is written. -/
def clockText (t : Timestamp) : List Char :=
  digits 10 2 (t.timeOfDay / 3600) ++ ':' ::
    (digits 10 2 (t.timeOfDay / 60 % 60) ++ ':' :: digits 10 2 (t.timeOfDay % 60 + t.leap))

theorem toList_textWith {t : Timestamp} (hyear : 0 ≤ t.date.year ∧ t.date.year ≤ 9999)
    (zone : String) : (t.textWith zone).toList = dateText t.date ++ 'T' :: (t.clockText ++
      ((fraction (t.nanos % 1000000000)).toList ++ zone.toList)) := by
  have hyear : (yearText t.date.year).toList = digits 10 4 t.date.year.toNat := by
    rw [yearText, if_pos hyear]
    exact toList_padded (by decide) (by omega)
  have htwo : ∀ n < 100, (padded 2 n).toList = digits 10 2 n := fun n hn =>
    toList_padded (by decide) hn
  obtain ⟨hmonth, hday⟩ := CivilDate.ofDays_lt_hundred (t.seconds / 86400)
  have htime := t.timeOfDay_lt
  have hleap := t.leap_le_one
  unfold textWith
  simp only [String.toList_append]
  rw [← date] at *
  rw [← timeOfDay, ← leap, hyear, htwo _ hmonth, htwo _ hday, htwo _ (by omega),
    htwo _ (by omega), htwo _ (by omega)]
  simp only [dateText, clockText, List.append_assoc]
  rfl

/-- The text of a time up to its whole seconds. -/
def secondsText (t : Timestamp) : List Char :=
  dateText t.date ++ 'T' :: t.clockText

theorem length_secondsText (t : Timestamp) : t.secondsText.length = 19 := by
  simp [secondsText, dateText, clockText, length_digits]

theorem toList_stored {t : Timestamp} (hyear : 0 ≤ t.date.year ∧ t.date.year ≤ 9999) :
    t.stored.toList = t.secondsText ++
      if t.nanos % 1000000000 = 0 then zone else '.' :: grouped 3 (t.nanos % 1000000000) := by
  rw [stored, toList_textWith hyear, ← zone, toList_fraction (Nat.mod_lt _ (by decide)),
    secondsText, List.append_assoc]
  rfl

namespace Civil

variable {a b : Timestamp}

/-- A leap second comes after the last second of a minute. -/
theorem leap_eq (h : a.Civil) : a.leap = 0 ∧ a.nanos < 1000000000 ∨
    a.leap = 1 ∧ 1000000000 ≤ a.nanos ∧ a.nanos < 2000000000 ∧ a.timeOfDay % 60 = 59 := by
  have hnanos := h.nanos
  unfold leap timeOfDay
  split <;> omega

theorem clockText_lt (ha : a.Civil) (hb : b.Civil)
    (h : a.timeOfDay < b.timeOfDay ∨ a.timeOfDay = b.timeOfDay ∧ a.leap < b.leap) :
    a.clockText < b.clockText := by
  have htime := b.timeOfDay_lt
  have hleap := ha.leap_eq
  have hleap' := hb.leap_eq
  refine digits_append_lt (by omega) ?_
  by_cases hhour : a.timeOfDay / 3600 < b.timeOfDay / 3600
  · exact .inl hhour
  · refine .inr ⟨by omega, List.cons_lt_cons_iff.mpr (.inr ⟨rfl, ?_⟩)⟩
    refine digits_append_lt (by omega) ?_
    by_cases hminute : a.timeOfDay / 60 % 60 < b.timeOfDay / 60 % 60
    · exact .inl hminute
    · refine .inr ⟨by omega, List.cons_lt_cons_iff.mpr (.inr ⟨rfl, digits_lt ?_ ?_⟩)⟩
      · omega
      · omega

theorem secondsText_lt (ha : a.Civil) (hb : b.Civil)
    (h : a.seconds < b.seconds ∨ a.seconds = b.seconds ∧ a.leap < b.leap) :
    a.secondsText < b.secondsText := by
  unfold secondsText
  by_cases hday : a.seconds / 86400 < b.seconds / 86400
  · obtain ⟨hmonth, hday'⟩ := CivilDate.ofDays_lt_hundred (b.seconds / 86400)
    refine append_lt_append
      (dateText_lt (CivilDate.ofDays_before hday) ha.year.1 hb.year.2 hmonth hday') ?_ _ _
    simp only [dateText, List.length_append, List.length_cons, length_digits]
  · have hsame : a.seconds / 86400 = b.seconds / 86400 := by omega
    have hdate : a.date = b.date := by rw [date, date, hsame]
    rw [hdate]
    refine List.append_left_lt (List.cons_lt_cons_iff.mpr (.inr ⟨rfl, ha.clockText_lt hb ?_⟩))
    unfold timeOfDay
    omega

/-- An earlier time has the smaller text. -/
theorem stored_lt (ha : a.Civil) (hb : b.Civil) (h : a.Before b) : a.stored < b.stored := by
  rw [String.lt_iff_toList_lt, toList_stored ha.year, toList_stored hb.year]
  have hleap := ha.leap_eq
  have hleap' := hb.leap_eq
  by_cases hearlier : a.seconds < b.seconds ∨ a.seconds = b.seconds ∧ a.leap < b.leap
  · -- up to the seconds all texts have one length
    refine append_lt_append (ha.secondsText_lt hb hearlier) ?_ _ _
    rw [length_secondsText, length_secondsText]
  · have heq : a.seconds = b.seconds ∧ a.leap = b.leap := by
      unfold Before at h
      omega
    have hsame : a.secondsText = b.secondsText := by
      simp only [secondsText, clockText, date, timeOfDay, heq.1, heq.2]
    have hlt : a.nanos % 1000000000 < b.nanos % 1000000000 := by
      unfold Before at h
      omega
    rw [hsame, if_neg (Nat.ne_of_gt (Nat.zero_lt_of_lt hlt))]
    refine List.append_left_lt ?_
    split
    · exact List.cons_lt_cons_iff.mpr (.inl (by decide))
    · exact List.cons_lt_cons_iff.mpr
        (.inr ⟨rfl, grouped_lt hlt (Nat.mod_lt _ (by decide))⟩)

/-- The order of stored times is the order of their texts. -/
theorem stored_lt_iff (ha : a.Civil) (hb : b.Civil) : a.stored < b.stored ↔ a.Before b := by
  refine ⟨fun h => ?_, ha.stored_lt hb⟩
  rcases before_trichotomy a b with hab | rfl | hba
  · exact hab
  · exact absurd h (String.lt_irrefl _)
  · exact absurd (String.lt_trans h (hb.stored_lt ha hba)) (String.lt_irrefl _)

end Civil

/-- The order of stored times is the order of their texts. -/
theorem stored_lt_iff {a b : Timestamp} (ha : a.Plain) (hb : b.Plain) :
    a.stored < b.stored ↔ a.Before b :=
  ha.civil.stored_lt_iff hb.civil

/-- Different times have different texts. -/
theorem stored_inj {a b : Timestamp} (ha : a.Plain) (hb : b.Plain) (h : a.stored = b.stored) :
    a = b := by
  have hirrefl := String.lt_irrefl b.stored
  rcases before_trichotomy a b with hab | heq | hba
  · have hlt := (stored_lt_iff ha hb).mpr hab
    rw [h] at hlt
    exact absurd hlt hirrefl
  · exact heq
  · have hlt := (stored_lt_iff hb ha).mpr hba
    rw [h] at hlt
    exact absurd hlt hirrefl

end Timestamp
end SshTunnels
