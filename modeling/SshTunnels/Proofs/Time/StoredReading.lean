import SshTunnels.Proofs.Text.Numerals
import SshTunnels.Proofs.Time.StoredOrder

/-!
# Reading times

A stored time is read back as it was (`ofStored?_stored`), and so is a written one
(`ofString?_text`), if its year has four digits. A time in a leap second shows the second sixty, so
it is read back if it is in the last second of a minute, as times in leap seconds are.
-/

namespace SshTunnels.Timestamp

open Text

/-! ## Fields -/

theorem readNumber_digits {width n : Nat} (hw : 0 < width) (h : n < 10 ^ width)
    (rest : List Char) : readNumber width (digits 10 width n ++ rest) = some (n, rest) := by
  have hlen : (digits 10 width n).length = width := length_digits 10 width n
  have hfound : ((digits 10 width n ++ rest).take width).takeWhile Char.isDigit =
      digits 10 width n := by
    rw [List.take_left' hlen]
    have hall := @takeWhile_digits width n [] rfl
    rwa [List.append_nil] at hall
  simp only [readNumber, trimStart_digits hw, hfound, if_neg (digits_ne_nil hw n),
    ofDecimal_digits h, List.drop_left]

theorem readYear_digits {year : Nat} (h : year < 10 ^ 4) (rest : List Char) :
    readYear (digits 10 4 year ++ rest) = some ((year : Int), rest) := by
  have hread := readNumber_digits (by decide) h rest
  have htrim := trimStart_digits (show 0 < 4 by decide) year rest
  obtain ⟨c, cs, hcs, hc⟩ := exists_digits_eq_cons (show 0 < 4 by decide) year
  rw [hcs, List.cons_append] at hread htrim ⊢
  unfold readYear
  simp only [htrim]
  split
  · next heq =>
    cases heq
    cases hc
  · next heq =>
    cases heq
    cases hc
  · rw [hread]
    rfl

theorem readFraction_digits {width n : Nat} (hw : 0 < width) (hw' : width ≤ 9)
    (h : n < 10 ^ width) {rest : List Char} (hrest : rest.head?.all fun c => !c.isDigit) :
    readFraction ('.' :: (digits 10 width n ++ rest)) = some (n * 10 ^ (9 - width), rest) := by
  have hkept : (digits 10 width n).take 9 = digits 10 width n :=
    List.take_of_length_le (by rw [length_digits]; exact hw')
  unfold readFraction
  simp only [takeWhile_digits width n hrest, dropWhile_digits width n hrest]
  split
  · next hnil => exact absurd hnil (digits_ne_nil hw n)
  · simp only [hkept, ofDecimal_digits h, length_digits]
    rfl

theorem readFraction_fraction {n : Nat} (h : n < 1000000000) {rest : List Char}
    (hrest : rest.head?.all fun c => !c.isDigit && c != '.') :
    readFraction ((fraction n).toList ++ rest) = some (n, rest) := by
  have hdigit : rest.head?.all fun c => !c.isDigit := by
    cases rest with
    | nil => rfl
    | cons c rest => simp_all
  have hpoint : ∀ text : String, ("." ++ text).toList = '.' :: text.toList :=
    fun text => String.toList_append
  unfold fraction
  split
  · next hzero =>
    rw [hzero]
    cases rest with
    | nil => rfl
    | cons c rest =>
      have hc : c ≠ '.' := by simp_all
      simp [readFraction, hc]
  · split
    · next hmillis =>
      rw [hpoint, toList_padded (by decide) (by omega), List.cons_append,
        readFraction_digits (by decide) (by decide) (by omega) hdigit]
      congr 2
      omega
    · split
      · next hmicros =>
        rw [hpoint, toList_padded (by decide) (by omega), List.cons_append,
          readFraction_digits (by decide) (by decide) (by omega) hdigit]
        congr 2
        omega
      · rw [hpoint, toList_padded (by decide) h, List.cons_append,
          readFraction_digits (by decide) (by decide) h hdigit]
        congr 2
        omega

theorem readNumber_two {n : Nat} (h : n < 100) (rest : List Char) :
    readNumber 2 (digits 10 2 n ++ rest) = some (n, rest) :=
  readNumber_digits (by decide) h rest

theorem readMark_cons {c : Char} (h : isBlank c = false) (rest : List Char) :
    readMark c (c :: rest) = some rest := by
  rw [readMark, trimStart, List.dropWhile_cons, h]
  exact if_pos rfl

theorem readDate_dateText {date : CivilDate} (hyear : 0 ≤ date.year ∧ date.year ≤ 9999)
    (hmonth : date.month < 100) (hday : date.day < 100) (rest : List Char) :
    readDate (dateText date ++ 'T' :: rest) = some (date, rest) := by
  have hback : ((date.year.toNat : Nat) : Int) = date.year := Int.toNat_of_nonneg hyear.1
  have hfour : date.year.toNat < 10 ^ 4 := by omega
  simp only [readDate, dateText, List.append_assoc, List.cons_append, readYear_digits hfour,
    readMark_cons (show isBlank '-' = false by decide), readNumber_two hmonth, readNumber_two hday,
    Option.bind_eq_bind, Option.bind_some, true_or, if_true, hback]

/-! ## Whole times -/

/-- The date and the time of day that a time shows name this time. -/
theorem ofCivil?_date {t : Timestamp} (ht : t.Civil) :
    ofCivil? t.date (t.timeOfDay / 3600) (t.timeOfDay / 60 % 60) (t.timeOfDay % 60 + t.leap)
      (t.nanos % 1000000000) 0 = some t := by
  have hyear := ht.year
  have hnanos := ht.nanos
  have htime : (t.timeOfDay : Int) = t.seconds % 86400 :=
    Int.toNat_of_nonneg (Int.emod_nonneg _ (by decide))
  have hleap : (if t.timeOfDay % 60 + t.leap = 60 then 1 else 0) = t.leap := by
    unfold leap
    split <;> split <;> omega
  have hseconds : (t.seconds / 86400 * 86400 : Int) + ((t.timeOfDay / 3600 * 3600 +
      t.timeOfDay / 60 % 60 * 60 + (t.timeOfDay % 60 + t.leap - t.leap) : Nat) : Int) - 0 =
        t.seconds := by omega
  have hback : t.nanos % 1000000000 + t.leap * 1000000000 = t.nanos := by
    unfold leap
    split <;> omega
  have hrange : yearInRange t.date.year = true := by
    simp only [yearInRange, Bool.and_eq_true, decide_eq_true_eq]
    omega
  have hfits : t.timeOfDay / 3600 < 24 ∧ t.timeOfDay / 60 % 60 < 60 ∧
      t.timeOfDay % 60 + t.leap ≤ 60 := by
    have hless := t.timeOfDay_lt
    have hone := t.leap_le_one
    omega
  unfold date at hrange ⊢
  unfold ofCivil?
  rw [if_pos]
  · simp only [hleap, CivilDate.toDays_ofDays, hseconds, hback, hrange, if_true]
  · simp [CivilDate.isValid_ofDays, hrange, hfits]

theorem clock_lt_hundred (t : Timestamp) : t.timeOfDay / 3600 < 100 ∧
    t.timeOfDay / 60 % 60 < 100 ∧ t.timeOfDay % 60 + t.leap < 100 := by
  have htime := t.timeOfDay_lt
  have hleap := t.leap_le_one
  omega

/-- A stored time is read back. -/
theorem ofStored?_stored {t : Timestamp} (ht : t.Civil) : ofStored? t.stored = some t := by
  obtain ⟨hmonth, hday⟩ := CivilDate.ofDays_lt_hundred (t.seconds / 86400)
  obtain ⟨hhour, hminute, hsecond⟩ := t.clock_lt_hundred
  have hfraction := readFraction_fraction (Nat.mod_lt t.nanos (show 0 < 1000000000 by decide))
    (show zone.head?.all (fun c => !c.isDigit && c != '.') by decide)
  have hzone : zone ≠ [] := by decide
  have hoffset : readOffset zone = some (0, []) := by decide
  rw [ofStored?, stored, toList_textWith ht.year, readDate_dateText ht.year hmonth hday, ← zone]
  simp only [clockText, List.append_assoc, List.cons_append, Option.bind_eq_bind,
    Option.bind_some, readNumber_two hhour, readNumber_two hminute, readNumber_two hsecond,
    readMark_cons (show isBlank ':' = false by decide), readSeconds, hfraction, if_neg hzone,
    hoffset, if_true, ofCivil?_date ht]

/-- A written time is read back. -/
theorem ofString?_text {t : Timestamp} (ht : t.Civil) : ofString? t.text = some t := by
  obtain ⟨hmonth, hday⟩ := CivilDate.ofDays_lt_hundred (t.seconds / 86400)
  obtain ⟨hhour, hminute, hsecond⟩ := t.clock_lt_hundred
  have hfraction := readFraction_fraction (Nat.mod_lt t.nanos (show 0 < 1000000000 by decide))
    (show "Z".toList.head?.all (fun c => !c.isDigit && c != '.') by decide)
  have hoffset : readOffset "Z".toList = some (0, []) := by decide
  have hread : readInstant t.text.toList = some (t, []) := by
    rw [readInstant, text, toList_textWith ht.year, readDate_dateText ht.year hmonth hday]
    simp only [clockText, List.append_assoc, List.cons_append, Option.bind_eq_bind,
      Option.bind_some, readNumber_two hhour, readNumber_two hminute, readNumber_two hsecond,
      readMark_cons (show isBlank ':' = false by decide), hfraction, hoffset, ofCivil?_date ht]
  rw [ofString?, hread]
  rfl

end SshTunnels.Timestamp
