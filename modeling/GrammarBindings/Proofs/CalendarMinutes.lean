import GrammarBindings.Proofs.CalendarDays
import Mathlib.Data.List.Lex

/-!
# Minutes of the calendar

A minute is a date with an hour and a minute of the day; the minutes before it give its number. The
minute that is computed for a second since 1970 is the one in which it lies. Minutes are in the order
of their fields, and are told apart by how they are written.
-/

namespace GrammarBindings
namespace CivilMinute

open Calendar

/-- The fields name a minute of a day of the calendar. -/
structure IsValid (c : CivilMinute) : Prop where
  date : IsDate c.year c.month c.day
  hour : c.hour < 24
  minute : c.minute < 60

/-- The minutes from the year 1 on before a minute. -/
def number (c : CivilMinute) : Nat :=
  (dayNumber c.year c.month c.day * 24 + c.hour) * 60 + c.minute

/-- The minutes from the beginning of 1970 on, negative before it. -/
def sinceEpoch (c : CivilMinute) : Int :=
  c.number - (⟨1970, 1, 1, 0, 0⟩ : CivilMinute).number

def fields (c : CivilMinute) : List Nat := [c.year, c.month, c.day, c.hour, c.minute]

variable {c c' : CivilMinute}

theorem fields_injective (h : c.fields = c'.fields) : c = c' := by
  cases c
  cases c'
  simpa [fields] using h

theorem IsValid.number_lt (h : c.IsValid) (hlt : c.fields < c'.fields) :
    c.number < c'.number := by
  have hhour := h.hour
  have hminute := h.minute
  suffices hsuffices : dayNumber c.year c.month c.day < dayNumber c'.year c'.month c'.day ∨
      dayNumber c.year c.month c.day = dayNumber c'.year c'.month c'.day ∧
        (c.hour < c'.hour ∨ c.hour = c'.hour ∧ c.minute < c'.minute) by
    rw [number, number]
    omega
  simp only [fields, List.cons_lt_cons_iff, List.lt_irrefl, and_false, or_false] at hlt
  rcases hlt with hyear | ⟨hyear, hmonth | ⟨hmonth, hday | ⟨hday, hrest⟩⟩⟩
  · exact .inl (h.date.dayNumber_lt_of_year hyear _ _)
  · exact .inl (hyear ▸ h.date.dayNumber_lt_of_month hmonth _)
  · exact .inl (hyear ▸ hmonth ▸ h.date.dayNumber_lt_of_day hday)
  · exact .inr ⟨by rw [hyear, hmonth, hday], hrest⟩

theorem IsValid.number_lt_iff (h : c.IsValid) (h' : c'.IsValid) :
    c.number < c'.number ↔ c.fields < c'.fields := by
  refine ⟨fun hlt => ?_, h.number_lt⟩
  rcases lt_trichotomy c.fields c'.fields with hfields | hfields | hfields
  · exact hfields
  · rw [fields_injective hfields] at hlt
    exact absurd hlt (Nat.lt_irrefl _)
  · exact absurd hlt (Nat.lt_asymm (h'.number_lt hfields))

theorem IsValid.eq_of_number (h : c.IsValid) (h' : c'.IsValid) (heq : c.number = c'.number) :
    c = c' := by
  refine fields_injective (le_antisymm ?_ ?_)
  · rw [← not_lt, ← h'.number_lt_iff h, heq]
    exact Nat.lt_irrefl _
  · rw [← not_lt, ← h.number_lt_iff h', heq]
    exact Nat.lt_irrefl _

theorem isValid_civilMinute (n : Nat) : (civilMinute n).IsValid ∧ (civilMinute n).number = n := by
  obtain ⟨y, m, d, hday, hdate, hnumber⟩ := civilDay_spec (n / 1440)
  rw [civilMinute, hday]
  refine ⟨⟨hdate, ?_, ?_⟩, ?_⟩
  · show n % 1440 / 60 < 24
    omega
  · exact Nat.mod_lt n (by decide)
  · rw [number, hnumber]
    show (n / 1440 * 24 + n % 1440 / 60) * 60 + n % 60 = n
    omega

-- with variables for the fields, so that no sum over years is evaluated to check the equation
theorem number_mk (y m d hour minute : Nat) :
    (⟨y, m, d, hour, minute⟩ : CivilMinute).number = (dayNumber y m d * 24 + hour) * 60 + minute :=
  rfl

theorem number_epoch : (⟨1970, 1, 1, 0, 0⟩ : CivilMinute).number = 1035593280 := by
  have hyear : daysBeforeYear 1970 = 719162 := by simpa using daysBeforeYear_eq 1969
  have hmonth : daysBeforeMonth 1970 1 = 0 := rfl
  rw [number_mk, dayNumber, hyear, hmonth]

/-- The minute is the one in which the second lies, counted from the beginning of 1970 on. -/
structure Contains (c : CivilMinute) (e : Int) : Prop where
  valid : c.IsValid
  sinceEpoch_eq : c.sinceEpoch = e / 60

theorem exists_contains {e : Int} (hfirst : firstSecond ≤ e) (hlast : e ≤ lastSecond) :
    ∃ c : CivilMinute, ofEpoch? e = some c ∧ c.Contains e := by
  obtain ⟨hvalid, hnumber⟩ := isValid_civilMinute ((e - firstSecond).toNat / 60)
  refine ⟨_, if_pos ⟨hfirst, hlast⟩, hvalid, ?_⟩
  rw [sinceEpoch, hnumber, number_epoch]
  rw [firstSecond] at *
  omega

theorem Contains.number_eq {e : Int} (h : c.Contains e) : (c.number : Int) = e / 60 + 1035593280 := by
  have hsince := h.sinceEpoch_eq
  rw [sinceEpoch, number_epoch] at hsince
  omega

/-- The two decimal digits of a number below a hundred. -/
def digitPair (n : Nat) : List Char := [Nat.digitChar (n / 10), Nat.digitChar (n % 10)]

theorem toList_toString (n : Nat) : (toString n).toList = Nat.toDigits 10 n := Nat.toList_repr

theorem toList_twoDigits {n : Nat} (h : n < 100) : (twoDigits n).toList = digitPair n := by
  rw [twoDigits, digitPair]
  split
  · next hlt =>
    rw [String.toList_append, toList_toString, Nat.toDigits_of_lt_base hlt, Nat.div_eq_of_lt hlt,
      Nat.mod_eq_of_lt hlt]
    rfl
  · next hge =>
    have htens : n / 10 < 10 := by omega
    rw [toList_toString, Nat.toDigits_of_base_le (by decide) (Nat.not_lt.1 hge),
      Nat.toDigits_of_lt_base htens]
    rfl

theorem eq_of_digitChar {a b : Nat} (ha : a < 10) (hb : b < 10)
    (h : Nat.digitChar a = Nat.digitChar b) : a = b := by
  have hcodes := congrArg Char.toNat h
  rw [Nat.toNat_digitChar_of_lt_ten ha, Nat.toNat_digitChar_of_lt_ten hb] at hcodes
  exact Nat.add_left_cancel hcodes

theorem eq_of_digitPair {a b : Nat} (ha : a < 100) (hb : b < 100)
    (h : digitPair a = digitPair b) : a = b := by
  rw [digitPair, digitPair, List.cons.injEq, List.cons.injEq] at h
  have htens := eq_of_digitChar (by omega) (by omega) h.1
  have hones := eq_of_digitChar (Nat.mod_lt a (by decide)) (Nat.mod_lt b (by decide)) h.2.1
  omega

theorem eq_of_toString {a b : Nat} (h : toString a = toString b) : a = b := by
  have hlists := congrArg String.toList h
  rw [toList_toString, toList_toString] at hlists
  rw [← Nat.ofDigitChars_ten_toDigits (n := a), hlists, Nat.ofDigitChars_ten_toDigits]

theorem IsValid.month_lt (h : c.IsValid) : c.month < 100 := by
  obtain ⟨-, ⟨-, hm⟩, -⟩ := h.date
  omega

theorem IsValid.day_lt (h : c.IsValid) : c.day < 100 := by
  obtain ⟨-, -, -, hd⟩ := h.date
  have hmonth : daysInMonth c.year c.month ≤ 31 := by
    rw [daysInMonth]
    repeat' split
    all_goals decide
  omega

theorem IsValid.toList_written (h : c.IsValid) :
    c.written.toList = (toString c.year).toList ++ ('-' :: digitPair c.month ++
      '-' :: digitPair c.day ++ ' ' :: digitPair c.hour ++ ':' :: digitPair c.minute ++
      " UTC".toList) := by
  have hhour := h.hour
  have hminute := h.minute
  rw [← toList_twoDigits h.month_lt, ← toList_twoDigits h.day_lt,
    ← toList_twoDigits (n := c.hour) (by omega), ← toList_twoDigits (n := c.minute) (by omega)]
  simp [written]

theorem IsValid.eq_of_written (h : c.IsValid) (h' : c'.IsValid) (heq : c.written = c'.written) :
    c = c' := by
  have hlists := congrArg String.toList heq
  rw [h.toList_written, h'.toList_written] at hlists
  obtain ⟨hyear, hbehind⟩ := List.append_inj' hlists rfl
  obtain ⟨hbehind, -⟩ := List.append_inj' hbehind rfl
  obtain ⟨hbehind, hminute⟩ := List.append_inj' hbehind rfl
  obtain ⟨hbehind, hhour⟩ := List.append_inj' hbehind rfl
  obtain ⟨hmonth, hday⟩ := List.append_inj' hbehind rfl
  have hhours := h.hour
  have hhours' := h'.hour
  have hminutes := h.minute
  have hminutes' := h'.minute
  refine fields_injective ?_
  rw [fields, eq_of_toString (String.toList_inj.1 hyear),
    eq_of_digitPair h.month_lt h'.month_lt (List.cons.inj hmonth).2,
    eq_of_digitPair h.day_lt h'.day_lt (List.cons.inj hday).2,
    eq_of_digitPair (by omega) (by omega) (List.cons.inj hhour).2,
    eq_of_digitPair (by omega) (by omega) (List.cons.inj hminute).2]
  rfl

end CivilMinute
end GrammarBindings
