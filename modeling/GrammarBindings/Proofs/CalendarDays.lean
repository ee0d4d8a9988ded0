import GrammarBindings.Calendar
import Mathlib.Algebra.BigOperators.Intervals
import Mathlib.Algebra.Order.BigOperators.Group.Finset
import Mathlib.Order.Interval.Finset.Nat
import Mathlib.Tactic.IntervalCases

/-!
# Days of the calendar

The number of a day is how many days there are before it: those of the years before its own, those of
the months before its own, and those before it in its month. Later dates have greater numbers. The
date that is computed for a number is the one that has it.
-/

namespace GrammarBindings
namespace Calendar

def IsDate (y m d : Nat) : Prop := 1 ≤ y ∧ (1 ≤ m ∧ m ≤ 12) ∧ 1 ≤ d ∧ d ≤ daysInMonth y m

/-- The days of a year before one of its months. -/
def daysBeforeMonth (y m : Nat) : Nat := ∑ k ∈ Finset.Ico 1 m, daysInMonth y k

def daysInYear (y : Nat) : Nat := daysBeforeMonth y 13

/-- The days from the year 1 on before a year. -/
def daysBeforeYear (y : Nat) : Nat := ∑ k ∈ Finset.Ico 1 y, daysInYear k

/-- The days from the year 1 on before a date. -/
def dayNumber (y m d : Nat) : Nat := daysBeforeYear y + daysBeforeMonth y m + (d - 1)

variable {y y' m m' d d' n : Nat}

theorem isLeapYear_iff : isLeapYear y = true ↔ y % 4 = 0 ∧ (y % 100 ≠ 0 ∨ y % 400 = 0) := by
  simp [isLeapYear]

theorem daysBeforeMonth_succ (hm : 1 ≤ m) (y : Nat) :
    daysBeforeMonth y (m + 1) = daysBeforeMonth y m + daysInMonth y m := Finset.sum_Ico_succ_top hm _

theorem daysBeforeYear_succ (hy : 1 ≤ y) :
    daysBeforeYear (y + 1) = daysBeforeYear y + daysInYear y := Finset.sum_Ico_succ_top hy _

theorem daysBeforeMonth_mono (y : Nat) (h : m ≤ m') : daysBeforeMonth y m ≤ daysBeforeMonth y m' :=
  Finset.sum_le_sum_of_subset (Finset.Ico_subset_Ico_right h)

theorem daysBeforeYear_mono (h : y ≤ y') : daysBeforeYear y ≤ daysBeforeYear y' :=
  Finset.sum_le_sum_of_subset (Finset.Ico_subset_Ico_right h)

/-- Five months have 153 days, wherever they begin between March and August. -/
theorem daysInMonth_fromMarch (y : Nat) (hm : m < 10) :
    (153 * m + 2) / 5 + daysInMonth y (m + 3) = (153 * (m + 1) + 2) / 5 := by
  interval_cases m <;> rfl

/-- There are 59 days in front of March, or 60 in a leap year. -/
theorem daysBeforeMonth_fromMarch (y : Nat) (hm : m ≤ 10) :
    daysBeforeMonth y (m + 3) = (if isLeapYear y then 60 else 59) + (153 * m + 2) / 5 := by
  induction m with
  | zero =>
    have hmarch : daysBeforeMonth y 3 = 31 + if isLeapYear y then 29 else 28 := rfl
    rw [hmarch]
    split <;> rfl
  | succ m ih =>
    rw [Nat.add_right_comm, daysBeforeMonth_succ (Nat.le_add_left 1 _), ih (by omega),
      Nat.add_assoc, daysInMonth_fromMarch y (by omega)]

theorem daysInYear_eq (y : Nat) : daysInYear y = if isLeapYear y then 366 else 365 := by
  rw [daysInYear, daysBeforeMonth_fromMarch y (by decide)]
  split <;> rfl

theorem daysBeforeYear_eq (y : Nat) :
    daysBeforeYear (y + 1) = 365 * y + y / 4 - y / 100 + y / 400 := by
  induction y with
  | zero => rfl
  | succ y ih =>
    rw [daysBeforeYear_succ (Nat.le_add_left 1 y), ih, daysInYear_eq]
    by_cases h : isLeapYear (y + 1) = true
    · rw [if_pos h]
      rw [isLeapYear_iff] at h
      omega
    · rw [if_neg h]
      rw [isLeapYear_iff] at h
      omega

/-- A day of an era, by its century, its four years, its year among them and its day. -/
theorem exists_year_of_era {d : Nat} (hd : d < 146097) :
    ∃ c k j r, c < 4 ∧ k < 25 ∧ j < 4 ∧ d = 36524 * c + 1461 * k + 365 * j + r ∧
      (r < 365 ∨ r = 365 ∧ j = 3 ∧ (k < 24 ∨ c = 3)) := by
  obtain ⟨c, hc, hlow, hhigh⟩ : ∃ c < 4, 36524 * c ≤ d ∧ (d < 36524 * c + 36524 ∨ c = 3) :=
    ⟨min (d / 36524) 3, by omega, by omega, by omega⟩
  obtain ⟨k, hk, hlow, hhigh⟩ : ∃ k < 25, 36524 * c + 1461 * k ≤ d ∧
      d < 36524 * c + 1461 * k + 1461 :=
    ⟨(d - 36524 * c) / 1461, by omega, by omega, by omega⟩
  obtain ⟨j, hj, hlow, hhigh⟩ : ∃ j < 4, 36524 * c + 1461 * k + 365 * j ≤ d ∧
      (d < 36524 * c + 1461 * k + 365 * j + 365 ∨ j = 3) :=
    ⟨min ((d - 36524 * c - 1461 * k) / 365) 3, by omega, by omega, by omega⟩
  refine ⟨c, k, j, d - (36524 * c + 1461 * k + 365 * j), hc, hk, hj, by omega, by omega⟩

theorem yearOfEra_eq {c k j r : Nat} (hc : c < 4) (hk : k < 25) (hj : j < 4)
    (hr : r < 365 ∨ r = 365 ∧ j = 3 ∧ (k < 24 ∨ c = 3)) :
    yearOfEra (36524 * c + 1461 * k + 365 * j + r) = 100 * c + 4 * k + j := by
  generalize hd : 36524 * c + 1461 * k + 365 * j + r = d
  -- the last day of a cycle of four years is counted one cycle later
  have hfour : d / 1460 = 25 * c + k + if 1460 ≤ 24 * c + k + 365 * j + r then 1 else 0 := by
    split <;> omega
  have hcentury : d / 36524 = c + if d = 146096 then 1 else 0 := by
    split <;> omega
  have hera : d / 146096 = if d = 146096 then 1 else 0 := by
    split <;> omega
  rw [yearOfEra, hfour, hcentury, hera]
  split <;> split <;> omega

theorem firstDayOfYear_eq {c k j : Nat} (hk : k < 25) (hj : j < 4) :
    firstDayOfYear (100 * c + 4 * k + j) = 36524 * c + 1461 * k + 365 * j := by
  rw [firstDayOfYear]
  omega

/-- A day of an era lies in the year that is computed for it, which has 366 days if the next year of
the calendar is a leap year. -/
theorem yearOfEra_spec {d : Nat} (hd : d < 146097) :
    yearOfEra d < 400 ∧ firstDayOfYear (yearOfEra d) ≤ d ∧
      d - firstDayOfYear (yearOfEra d) < 365 + if isLeapYear (yearOfEra d + 1) then 1 else 0 := by
  obtain ⟨c, k, j, r, hc, hk, hj, rfl, hr⟩ := exists_year_of_era hd
  rw [yearOfEra_eq hc hk hj hr, firstDayOfYear_eq hk hj]
  refine ⟨by omega, by omega, ?_⟩
  split
  · omega
  · next hleap =>
    rw [isLeapYear_iff] at hleap
    omega

theorem isLeapYear_add_era (y e : Nat) : isLeapYear (y + e * 400) = isLeapYear y := by
  rw [Bool.eq_iff_iff, isLeapYear_iff, isLeapYear_iff]
  omega

/-- The calendar repeats after an era. -/
theorem daysBeforeYear_add_era (hy : y < 400) (e : Nat) :
    daysBeforeYear (y + e * 400 + 1) = 146097 * e + firstDayOfYear y := by
  have hfours : (y + e * 400) / 4 = y / 4 + 100 * e := by omega
  have hcenturies : (y + e * 400) / 100 = y / 100 + 4 * e := by omega
  have heras : (y + e * 400) / 400 = e := by omega
  rw [daysBeforeYear_eq, firstDayOfYear, hfours, hcenturies, heras]
  omega

/-- The month of a day of the year that begins in March, and where the month begins and ends. -/
theorem month_spec {r : Nat} (hr : r < 366) :
    (5 * r + 2) / 153 < 12 ∧ (153 * ((5 * r + 2) / 153) + 2) / 5 ≤ r ∧
      r < (153 * ((5 * r + 2) / 153 + 1) + 2) / 5 := by
  omega

theorem dayNumber_fromMarch (hy : 1 ≤ y) (hm : m < 10) (d : Nat) :
    dayNumber y (m + 3) d + 306 = daysBeforeYear (y + 1) + (153 * m + 2) / 5 + (d - 1) := by
  rw [dayNumber, daysBeforeMonth_fromMarch y (Nat.le_of_lt hm), daysBeforeYear_succ hy,
    daysInYear_eq]
  split <;> omega

theorem dayNumber_beforeMarch (hm : 10 ≤ m) (hm' : m < 12) (y d : Nat) :
    dayNumber y (m - 9) d + 306 = daysBeforeYear y + (153 * m + 2) / 5 + (d - 1) := by
  have hmonth : daysBeforeMonth y (m - 9) + 306 = (153 * m + 2) / 5 := by
    interval_cases m <;> rfl
  rw [dayNumber]
  omega

/-- A number is taken apart into a year that begins in March, a month of it and a day. -/
theorem civilDay_eq (n : Nat) :
    ∃ y r, n + 306 = daysBeforeYear (y + 1) + r ∧
      r < 365 + (if isLeapYear (y + 1) then 1 else 0) ∧
      civilDay n =
        let m := (5 * r + 2) / 153
        let d := r - (153 * m + 2) / 5 + 1
        if m < 10 then (y, m + 3, d) else (y + 1, m - 9, d) := by
  obtain ⟨hera, hfirst, hr⟩ := yearOfEra_spec (Nat.mod_lt (n + 306) (by decide : 0 < 146097))
  have hn := Nat.div_add_mod (n + 306) 146097
  refine ⟨yearOfEra ((n + 306) % 146097) + (n + 306) / 146097 * 400,
    (n + 306) % 146097 - firstDayOfYear (yearOfEra ((n + 306) % 146097)), ?_, ?_, ?_⟩
  · rw [daysBeforeYear_add_era hera]
    omega
  · rwa [Nat.add_right_comm, isLeapYear_add_era]
  · have hmonth := month_spec (r := (n + 306) % 146097 -
      firstDayOfYear (yearOfEra ((n + 306) % 146097))) (by split at hr <;> omega)
    rw [civilDay]
    simp only
    split
    · rw [if_neg (by omega), Nat.add_zero]
    · rw [if_pos (by omega)]

/-- The date of a number is a date, and has this number. -/
theorem civilDay_spec (n : Nat) :
    ∃ y m d, civilDay n = (y, m, d) ∧ IsDate y m d ∧ dayNumber y m d = n := by
  obtain ⟨y, r, hn, hr, hcivil⟩ := civilDay_eq n
  obtain ⟨hm, hlow, hhigh⟩ := month_spec (r := r) (by split at hr <;> omega)
  simp only at hcivil
  generalize (5 * r + 2) / 153 = m at *
  by_cases hmarch : m < 10
  · rw [if_pos hmarch] at hcivil
    have hy : 1 ≤ y := by
      rcases Nat.eq_zero_or_pos y with rfl | hy
      · have hzero : daysBeforeYear (0 + 1) = 0 := rfl
        omega
      · exact hy
    have hnumber := dayNumber_fromMarch hy hmarch (r - (153 * m + 2) / 5 + 1)
    have hmonth := daysInMonth_fromMarch y hmarch
    exact ⟨_, _, _, hcivil, ⟨hy, ⟨by omega, by omega⟩, by omega, by omega⟩, by omega⟩
  · rw [if_neg hmarch] at hcivil
    have hnumber := dayNumber_beforeMarch (by omega) hm (y + 1) (r - (153 * m + 2) / 5 + 1)
    have hlast : r - (153 * m + 2) / 5 + 1 ≤ daysInMonth (y + 1) (m - 9) := by
      obtain rfl | rfl : m = 10 ∨ m = 11 := by omega
      · have hjanuary : daysInMonth (y + 1) (10 - 9) = 31 := rfl
        omega
      · have hfebruary : daysInMonth (y + 1) (11 - 9) =
            28 + if isLeapYear (y + 1) then 1 else 0 := by
          rw [daysInMonth, if_pos rfl]
          split <;> rfl
        omega
    exact ⟨_, _, _, hcivil, ⟨by omega, ⟨by omega, by omega⟩, by omega, hlast⟩, by omega⟩

theorem IsDate.daysBeforeMonth_add_lt (h : IsDate y m d) :
    daysBeforeMonth y m + (d - 1) < daysBeforeMonth y (m + 1) := by
  obtain ⟨-, ⟨hm, -⟩, hd, hd'⟩ := h
  rw [daysBeforeMonth_succ hm]
  omega

theorem IsDate.dayNumber_lt (h : IsDate y m d) : dayNumber y m d < daysBeforeYear (y + 1) := by
  have hmonth := h.daysBeforeMonth_add_lt
  obtain ⟨hy, ⟨-, hm⟩, -⟩ := h
  have hyear : daysBeforeMonth y (m + 1) ≤ daysBeforeMonth y 13 :=
    daysBeforeMonth_mono y (Nat.succ_le_succ hm)
  rw [daysBeforeYear_succ hy, dayNumber, daysInYear]
  omega

theorem IsDate.dayNumber_lt_of_year (h : IsDate y m d) (hy : y < y') (m' d' : Nat) :
    dayNumber y m d < dayNumber y' m' d' :=
  calc dayNumber y m d
      < daysBeforeYear (y + 1) := h.dayNumber_lt
    _ ≤ daysBeforeYear y' := daysBeforeYear_mono hy
    _ ≤ dayNumber y' m' d' := by
      rw [dayNumber, Nat.add_assoc]
      exact Nat.le_add_right _ _

theorem IsDate.dayNumber_lt_of_month (h : IsDate y m d) (hm : m < m') (d' : Nat) :
    dayNumber y m d < dayNumber y m' d' := by
  have hmonth := h.daysBeforeMonth_add_lt
  have hlater : daysBeforeMonth y (m + 1) ≤ daysBeforeMonth y m' := daysBeforeMonth_mono y hm
  rw [dayNumber, dayNumber]
  omega

theorem IsDate.dayNumber_lt_of_day (h : IsDate y m d) (hd : d < d') :
    dayNumber y m d < dayNumber y m d' := by
  obtain ⟨-, -, hd', -⟩ := h
  rw [dayNumber, dayNumber]
  omega

end Calendar
end GrammarBindings
