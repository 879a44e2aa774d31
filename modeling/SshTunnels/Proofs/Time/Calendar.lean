import SshTunnels.Time.Timestamp

/-!
# The calendar

Later days have later dates. Years are counted from March here, so that the leap day is the last of
its year: then a year, and each month of it, begins at a number of days that does not depend on the
year being a leap year (`yearStart`, `monthStart`). `ofDays_eq` places a day between the beginnings
of its year and month and those of the next ones. From that follow the order of dates, that every
date made of days exists, and that the days are got back from it.
-/

namespace SshTunnels
namespace CivilDate

/-- The first date is the earlier one. -/
def Before (a b : CivilDate) : Prop :=
  a.year < b.year ∨ a.year = b.year ∧ (a.month < b.month ∨ a.month = b.month ∧ a.day < b.day)

/-- The days before a year that begins in March. -/
def yearStart (year : Int) : Int :=
  365 * year + year / 4 - year / 100 + year / 400

/-- The days before a month, counted from March, in its year. -/
def monthStart (month : Int) : Int :=
  (153 * month + 2) / 5

/-- Years begin one after the other. -/
theorem yearStart_le {y z : Int} (h : y < z) : yearStart (y + 1) ≤ yearStart z := by
  unfold yearStart
  omega

/-- A year has 366 days at most. -/
theorem yearStart_succ_le (y : Int) : yearStart (y + 1) ≤ yearStart y + 366 := by
  unfold yearStart
  omega

/-- Four hundred years make an era of a fixed number of days. -/
theorem yearStart_add_era (y era : Int) :
    yearStart (y + era * 400) = 146097 * era + yearStart y := by
  have h4 : (y + era * 400) / 4 = y / 4 + 100 * era := by omega
  have h100 : (y + era * 400) / 100 = y / 100 + 4 * era := by omega
  have h400 : (y + era * 400) / 400 = y / 400 + era := by omega
  unfold yearStart
  rw [h4, h100, h400]
  omega

/-- The year that a day of an era of four hundred years is in. -/
theorem yearOfEra_bounds {e y : Int} (h₀ : 0 ≤ e) (h₁ : e < 146097)
    (hy : y = (e - e / 1460 + e / 36524 - e / 146096) / 365) :
    yearStart y = 365 * y + y / 4 - y / 100 ∧ yearStart y ≤ e ∧ e < yearStart (y + 1) := by
  unfold yearStart
  rcases Int.lt_or_eq_of_le (Int.le_sub_one_of_lt h₁) with hlt | rfl
  · -- the day is in the century `c`, in the cycle `q` of four years of it, and the day `s` of that
    obtain ⟨c, q, s, hc, hc', hq, hq', hs, hs', hqs, he⟩ :
        ∃ c q s : Int, 0 ≤ c ∧ c ≤ 3 ∧ 0 ≤ q ∧ q ≤ 24 ∧ 0 ≤ s ∧ s ≤ 1460 ∧
          1461 * q + s ≤ 36523 ∧ e = 36524 * c + (1461 * q + s) :=
      ⟨e / 36524, e % 36524 / 1461, e % 36524 % 1461, by omega, by omega, by omega, by omega,
        by omega, by omega, by omega, by omega⟩
    obtain ⟨n, hn, hn', hcycles⟩ : ∃ n : Int, 1460 * n ≤ 24 * c + q + s ∧
        24 * c + q + s < 1460 * n + 1460 ∧ e / 1460 = 25 * c + q + n :=
      ⟨(24 * c + q + s) / 1460, by omega, by omega, by omega⟩
    have hcentury : e / 36524 = c := by omega
    have hera : e / 146096 = 0 := by omega
    obtain ⟨w, hw, hw', hyear⟩ :
        ∃ w : Int, 365 * w ≤ s - n ∧ s - n < 365 * w + 365 ∧ y = 100 * c + 4 * q + w :=
      ⟨(s - n) / 365, by omega, by omega, by omega⟩
    have hcycle : 0 ≤ w ∧ w ≤ 3 ∧ 365 * w ≤ s ∧ (w = 3 ∨ w ≤ 2 ∧ s < 365 * w + 365) := by omega
    clear hw hw' hn hn' hcycles hcentury hera hy
    obtain ⟨hw, hw', hbegun, hover⟩ := hcycle
    have hy4 : y / 4 = 25 * c + q := by omega
    have hy100 : y / 100 = c := by omega
    have hy400 : y / 400 = 0 := by omega
    refine ⟨by omega, by omega, ?_⟩
    have hnext400 : 0 ≤ (y + 1) / 400 := by omega
    rcases hover with rfl | ⟨hw2, hs'⟩
    · have hnext4 : (y + 1) / 4 = 25 * c + q + 1 := by omega
      rcases Int.lt_or_eq_of_le hq' with hq24 | rfl
      · have hnext100 : (y + 1) / 100 = c := by omega
        omega
      · have hnext100 : (y + 1) / 100 = c + 1 := by omega
        omega
    · have hnext4 : (y + 1) / 4 = 25 * c + q := by omega
      have hnext100 : (y + 1) / 100 = c := by omega
      omega
  · omega

/-- A day's date, from the beginnings of its year and month. -/
theorem ofDays_eq (days : Int) : ∃ y m d : Int, 0 ≤ m ∧ m ≤ 11 ∧ 0 ≤ d ∧
    monthStart m + d < monthStart (m + 1) ∧
    yearStart y + (monthStart m + d) = days + 719468 ∧ days + 719468 < yearStart (y + 1) ∧
    ofDays days = if m < 10 then ⟨y, (m + 3).toNat, (d + 1).toNat⟩
      else ⟨y + 1, (m - 9).toNat, (d + 1).toNat⟩ := by
  have hera := Int.mul_ediv_add_emod (days + 719468) 146097
  have hlow := Int.emod_nonneg (days + 719468) (show (146097 : Int) ≠ 0 by decide)
  have hhigh := Int.emod_lt_of_pos (days + 719468) (show (0 : Int) < 146097 by decide)
  unfold ofDays
  simp only
  generalize (days + 719468) % 146097 = e at *
  generalize (days + 719468) / 146097 = era at *
  generalize hyear : (e - e / 1460 + e / 36524 - e / 146096) / 365 = y
  obtain ⟨hstart, hbegun, hover⟩ := yearOfEra_bounds hlow hhigh hyear.symm
  rw [← hstart]
  have hlength := yearStart_succ_le y
  generalize hday : e - yearStart y = doy
  generalize hmonth : (5 * doy + 2) / 153 = m
  generalize hrest : doy - (153 * m + 2) / 5 = d
  have hdoy : 0 ≤ doy ∧ doy ≤ 365 := by omega
  refine ⟨y + era * 400, m, d, ?_, ?_, ?_, ?_, ?_, ?_, rfl⟩
  · omega
  · omega
  · omega
  · unfold monthStart
    omega
  · rw [yearStart_add_era]
    unfold monthStart
    omega
  · rw [show y + era * 400 + 1 = y + 1 + era * 400 by omega, yearStart_add_era]
    omega

/-- The months and days of dates fit into two digits. -/
theorem ofDays_lt_hundred (days : Int) : (ofDays days).month < 100 ∧ (ofDays days).day < 100 := by
  obtain ⟨y, m, d, hm, hm', hd, hd', -, -, hdate⟩ := ofDays_eq days
  unfold monthStart at hd'
  rw [hdate]
  split
  · simp only
    omega
  · simp only
    omega

/-- A later day has a later date. -/
theorem ofDays_before {a b : Int} (h : a < b) : (ofDays a).Before (ofDays b) := by
  obtain ⟨y, m, d, hm, hm', hd, hmonth, hday, hyear, hdate⟩ := ofDays_eq a
  obtain ⟨y', m', d', hn, hn', hd', hmonth', hday', hyear', hdate'⟩ := ofDays_eq b
  -- counted from March, the dates are in order
  have horder : y < y' ∨ y = y' ∧ (m < m' ∨ m = m' ∧ d < d') := by
    rcases Int.lt_trichotomy y y' with hlt | rfl | hgt
    · exact .inl hlt
    · refine .inr ⟨rfl, ?_⟩
      rcases Int.lt_trichotomy m m' with hlt | rfl | hgt
      · exact .inl hlt
      · exact .inr ⟨rfl, by omega⟩
      · unfold monthStart at *
        omega
    · have hyears := yearStart_le hgt
      unfold monthStart at hday
      omega
  rw [hdate, hdate', Before]
  split <;> split <;> simp only <;> omega

/-- The days of a date are those that the date was made of. -/
theorem toDays_ofDays (days : Int) : (ofDays days).toDays = days := by
  obtain ⟨y, m, d, hm, hm', hd, -, hdays, -, hdate⟩ := ofDays_eq days
  unfold yearStart monthStart at hdays
  rw [hdate]
  split
  · have hmarch : ¬ (m + 3).toNat ≤ 2 := by omega
    simp only [toDays, if_neg hmarch]
    omega
  · have hjanuary : (m - 9).toNat ≤ 2 := by omega
    simp only [toDays, if_pos hjanuary]
    omega

/-- February, the last month of a year that begins in March, ends with the year. -/
theorem yearStart_succ (y : Int) :
    yearStart (y + 1) = yearStart y + if isLeap (y + 1) = true then 366 else 365 := by
  have hleap : isLeap (y + 1) = true ↔
      (y + 1) % 4 = 0 ∧ ((y + 1) % 100 ≠ 0 ∨ (y + 1) % 400 = 0) := by
    simp [isLeap]
  unfold yearStart
  split
  · next h =>
    rw [hleap] at h
    omega
  · next h =>
    rw [hleap] at h
    omega

/-- No month has more than 31 days; April, June, September and November have thirty. -/
theorem monthStart_succ (m : Int) :
    monthStart (m + 1) ≤ monthStart m + 31 ∧
      (m = 1 ∨ m = 3 ∨ m = 6 ∨ m = 8 → monthStart (m + 1) = monthStart m + 30) := by
  unfold monthStart
  omega

theorem isValid_iff {date : CivilDate} : date.isValid = true ↔
    1 ≤ date.month ∧ date.month ≤ 12 ∧ 1 ≤ date.day ∧
      date.day ≤ daysInMonth date.year date.month := by
  simp only [isValid, Bool.and_eq_true, decide_eq_true_eq, and_assoc]

/-- The date of a day is a day that exists. -/
theorem isValid_ofDays (days : Int) : (ofDays days).isValid = true := by
  obtain ⟨y, m, d, hm, hm', hd, hmonth, hdays, hyear, hdate⟩ := ofDays_eq days
  have hlength := monthStart_succ m
  rw [isValid_iff, hdate]
  unfold daysInMonth
  split
  · refine ⟨by simp only; omega, by simp only; omega, by simp only; omega, ?_⟩
    simp only
    rw [if_neg (by omega)]
    split
    · omega
    · omega
  · refine ⟨by simp only; omega, by simp only; omega, by simp only; omega, ?_⟩
    simp only
    split
    · -- February ends with the year
      have hyears := yearStart_succ y
      have hfebruary : m = 11 := by omega
      have hstart : monthStart 11 = 337 := rfl
      subst hfebruary
      split
      · next hleap =>
        rw [if_pos hleap] at hyears
        omega
      · next hleap =>
        rw [if_neg hleap] at hyears
        omega
    · rw [if_neg (by omega)]
      omega

end CivilDate
end SshTunnels
