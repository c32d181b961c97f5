import Mathlib.Tactic

/-! # The Gregorian Calendar

    Days are numbered from 1 January 1970, in both directions. `day_number` and
    `of_day` go from a date to its number and back.
-/

namespace Framework

/-! ### Years -/

def is_leap (year : Int) : Bool :=
  decide (year % 4 = 0) && (decide (year % 100 ≠ 0) || decide (year % 400 = 0))

/-- The number of the first of January. -/
def day_from_year (year : Int) : Int :=
  365 * (year - 1970) + (year - 1969) / 4 - (year - 1901) / 100 + (year - 1601) / 400

def days_in_year (year : Int) : Nat := if is_leap year then 366 else 365

theorem is_leap_iff (year : Int) :
    is_leap year = true ↔ year % 4 = 0 ∧ (year % 100 ≠ 0 ∨ year % 400 = 0) := by
  simp [is_leap]

theorem day_from_year_succ (year : Int) :
    day_from_year (year + 1) = day_from_year year + days_in_year year := by
  unfold day_from_year days_in_year
  by_cases hleap : is_leap year = true
  · have hrule := (is_leap_iff year).mp hleap
    rw [if_pos hleap]
    omega
  · have hrule := mt (is_leap_iff year).mpr hleap
    rw [if_neg hleap]
    omega

theorem day_from_year_lt {a b : Int} (h : a < b) : day_from_year a < day_from_year b := by
  unfold day_from_year
  omega

/-- A year has 365.2425 days on average, and its first day is never two days off. -/
theorem day_from_year_near (year : Int) :
    146097 * (year - 1970) - 506 ≤ 400 * day_from_year year ∧
      400 * day_from_year year ≤ 146097 * (year - 1970) + 589 := by
  unfold day_from_year
  omega

/-- The year of a day: the average gives it up to one. -/
def year_from_day (n : Int) : Int :=
  let guess := 1970 + 400 * n / 146097
  if n < day_from_year guess then guess - 1
  else if n < day_from_year (guess + 1) then guess
  else guess + 1

theorem year_from_day_spec (n : Int) :
    day_from_year (year_from_day n) ≤ n ∧ n < day_from_year (year_from_day n + 1) := by
  obtain ⟨guess, hguess⟩ : ∃ guess, guess = 1970 + 400 * n / 146097 := ⟨_, rfl⟩
  have hbefore := day_from_year_near (guess - 1)
  have hafter := day_from_year_near (guess + 1 + 1)
  unfold year_from_day
  rw [← hguess]
  dsimp only
  by_cases hlow : n < day_from_year guess
  · rw [if_pos hlow, Int.sub_add_cancel]
    exact ⟨by omega, hlow⟩
  · rw [if_neg hlow]
    by_cases hhigh : n < day_from_year (guess + 1)
    · rw [if_pos hhigh]
      exact ⟨Int.not_lt.mp hlow, hhigh⟩
    · rw [if_neg hhigh]
      exact ⟨Int.not_lt.mp hhigh, by omega⟩

theorem year_from_day_eq {n year : Int} (hlow : day_from_year year ≤ n)
    (hhigh : n < day_from_year (year + 1)) : year_from_day n = year := by
  obtain ⟨hle, hlt⟩ := year_from_day_spec n
  rcases Int.lt_trichotomy (year_from_day n) year with hless | heq | hmore
  · have hmono : day_from_year (year_from_day n + 1) ≤ day_from_year year := by
      rcases Int.lt_or_eq_of_le (show year_from_day n + 1 ≤ year by omega) with h | h
      · exact Int.le_of_lt (day_from_year_lt h)
      · rw [h]
    omega
  · exact heq
  · have hmono : day_from_year (year + 1) ≤ day_from_year (year_from_day n) := by
      rcases Int.lt_or_eq_of_le (show year + 1 ≤ year_from_day n by omega) with h | h
      · exact Int.le_of_lt (day_from_year_lt h)
      · rw [h]
    omega

/-! ### Months -/

def days_in_month (leap : Bool) : Nat → Nat
  | 1 => 31
  | 2 => if leap then 29 else 28
  | 3 => 31
  | 4 => 30
  | 5 => 31
  | 6 => 30
  | 7 => 31
  | 8 => 31
  | 9 => 30
  | 10 => 31
  | 11 => 30
  | 12 => 31
  | _ => 0

/-- The days of the year before the month. -/
def days_before_month (leap : Bool) : Nat → Nat
  | 0 => 0
  | month + 1 => days_before_month leap month + days_in_month leap month

theorem days_before_month_mono (leap : Bool) {a b : Nat} (h : a ≤ b) :
    days_before_month leap a ≤ days_before_month leap b := by
  induction b with
  | zero =>
    obtain rfl : a = 0 := by omega
    exact Nat.le_refl _
  | succ b ih =>
    rcases Nat.lt_or_eq_of_le h with hlt | rfl
    · exact Nat.le_trans (ih (by omega)) (Nat.le_add_right _ _)
    · exact Nat.le_refl _

theorem days_before_months (year : Int) :
    days_before_month (is_leap year) 13 = days_in_year year := by
  unfold days_in_year
  cases is_leap year <;> rfl

/-- The last of the first `bound` months that begins no later than the day. -/
def month_within (leap : Bool) (day : Nat) : (bound : Nat) → Nat
  | 0 => 0
  | bound + 1 =>
      if days_before_month leap (bound + 1) ≤ day then bound + 1
      else month_within leap day bound

theorem month_within_eq {leap : Bool} {day month bound : Nat} (hpos : 1 ≤ month)
    (hmonth : month ≤ bound) (hlow : days_before_month leap month ≤ day)
    (hhigh : day < days_before_month leap (month + 1)) :
    month_within leap day bound = month := by
  induction bound with
  | zero => omega
  | succ bound ih =>
    unfold month_within
    by_cases hlast : month = bound + 1
    · rw [← hlast, if_pos hlow]
    · have hlater := days_before_month_mono leap (show month + 1 ≤ bound + 1 by omega)
      rw [if_neg (by omega)]
      exact ih (by omega)

theorem month_within_spec {leap : Bool} {day : Nat} (bound : Nat)
    (hhigh : day < days_before_month leap (bound + 1)) :
    1 ≤ month_within leap day bound ∧ month_within leap day bound ≤ bound ∧
      days_before_month leap (month_within leap day bound) ≤ day ∧
      day < days_before_month leap (month_within leap day bound + 1) := by
  induction bound with
  | zero => exact absurd hhigh (Nat.not_lt_zero _)
  | succ bound ih =>
    unfold month_within
    by_cases hreached : days_before_month leap (bound + 1) ≤ day
    · rw [if_pos hreached]
      exact ⟨by omega, Nat.le_refl _, hreached, hhigh⟩
    · rw [if_neg hreached]
      obtain ⟨hpos, hle, hspec⟩ := ih (Nat.not_le.mp hreached)
      exact ⟨hpos, by omega, hspec⟩

/-! ### Dates -/

/-- A day of the calendar. -/
structure CalendarDate where
  year : Int
  month : Nat
  day : Nat
  month_valid : 1 ≤ month ∧ month ≤ 12
  day_valid : 1 ≤ day ∧ day ≤ days_in_month (is_leap year) month
  deriving DecidableEq

namespace CalendarDate

def day_number (d : CalendarDate) : Int :=
  day_from_year d.year + days_before_month (is_leap d.year) d.month + (d.day - 1)

/-- Where in its year the day stands, from zero. -/
def day_of_year (n : Int) : Nat := (n - day_from_year (year_from_day n)).toNat

theorem day_of_year_lt (n : Int) :
    day_of_year n < days_before_month (is_leap (year_from_day n)) (12 + 1) := by
  have hyear := year_from_day_spec n
  have hmonths := days_before_months (year_from_day n)
  rw [day_from_year_succ] at hyear
  show day_of_year n < days_before_month (is_leap (year_from_day n)) 13
  rw [hmonths]
  unfold day_of_year
  omega

def month_of_day (n : Int) : Nat := month_within (is_leap (year_from_day n)) (day_of_year n) 12

theorem month_of_day_spec (n : Int) :
    1 ≤ month_of_day n ∧ month_of_day n ≤ 12 ∧
      days_before_month (is_leap (year_from_day n)) (month_of_day n) ≤ day_of_year n ∧
      day_of_year n < days_before_month (is_leap (year_from_day n)) (month_of_day n + 1) :=
  month_within_spec 12 (day_of_year_lt n)

/-- The date of a day. -/
def of_day (n : Int) : CalendarDate where
  year := year_from_day n
  month := month_of_day n
  day := day_of_year n - days_before_month (is_leap (year_from_day n)) (month_of_day n) + 1
  month_valid := ⟨(month_of_day_spec n).1, (month_of_day_spec n).2.1⟩
  day_valid := by
    obtain ⟨_, _, hlow, hhigh⟩ := month_of_day_spec n
    unfold days_before_month at hhigh
    omega

/-- **Round trip.** The number of a day gives the date back. -/
theorem of_day_number (d : CalendarDate) : of_day d.day_number = d := by
  obtain ⟨year, month, day, hmonth, hday⟩ := d
  have hbefore : days_before_month (is_leap year) (month + 1) ≤ days_in_year year := by
    rw [← days_before_months]
    exact days_before_month_mono _ (by omega)
  have hnext : days_before_month (is_leap year) (month + 1) =
      days_before_month (is_leap year) month + days_in_month (is_leap year) month := rfl
  have hyear : year_from_day (day_number ⟨year, month, day, hmonth, hday⟩) = year := by
    apply year_from_day_eq
    · unfold day_number
      dsimp only
      omega
    · rw [day_from_year_succ]
      unfold day_number
      dsimp only
      omega
  have hdoy : day_of_year (day_number ⟨year, month, day, hmonth, hday⟩) =
      days_before_month (is_leap year) month + (day - 1) := by
    unfold day_of_year
    rw [hyear]
    unfold day_number
    dsimp only
    omega
  have hmon : month_of_day (day_number ⟨year, month, day, hmonth, hday⟩) = month := by
    unfold month_of_day
    rw [hyear, hdoy]
    exact month_within_eq hmonth.1 hmonth.2 (by omega) (by omega)
  unfold of_day
  simp only [mk.injEq]
  refine ⟨hyear, hmon, ?_⟩
  rw [hyear, hmon, hdoy]
  omega

theorem day_number_of_day (n : Int) : (of_day n).day_number = n := by
  have hyear := year_from_day_spec n
  have hmonth := month_of_day_spec n
  have hdoy : (day_of_year n : Int) = n - day_from_year (year_from_day n) := by
    unfold day_of_year
    omega
  unfold day_number of_day
  dsimp only
  omega

/-- Two days with one date are the same day. -/
theorem of_day_inj {a b : Int} (h : of_day a = of_day b) : a = b := by
  rw [← day_number_of_day a, h, day_number_of_day b]

example : (of_day 20543).year = 2026 ∧ (of_day 20543).month = 3 ∧ (of_day 20543).day = 31 := by
  decide

end CalendarDate

end Framework
