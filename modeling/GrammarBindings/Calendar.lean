/-!
# Calendar

Minutes of the proleptic Gregorian calendar in Coordinated Universal Time, from the year 1 to the
year 9999, and their distance in seconds from the beginning of 1970.

Years are counted from March here, so that a leap day ends its year; 400 years make an era, after
which the calendar repeats.
-/

namespace GrammarBindings

structure CivilMinute where
  year : Nat
  month : Nat
  day : Nat
  hour : Nat
  minute : Nat
  deriving DecidableEq, Repr

namespace Calendar

def isLeapYear (y : Nat) : Bool := y % 4 = 0 && (y % 100 ≠ 0 || y % 400 = 0)

def daysInMonth (y m : Nat) : Nat :=
  if m = 2 then if isLeapYear y then 29 else 28
  else if m = 4 || m = 6 || m = 9 || m = 11 then 30
  else 31

/-- The year within an era of the day with a number from 0 to 146096. -/
def yearOfEra (d : Nat) : Nat := (d - d / 1460 + d / 36524 - d / 146096) / 365

/-- The number of the first day of a year within an era. -/
def firstDayOfYear (y : Nat) : Nat := 365 * y + y / 4 - y / 100

/-- Year, month and day of a day, counted from the first of January of the year 1. -/
def civilDay (n : Nat) : Nat × Nat × Nat :=
  let fromMarch := n + 306
  let d := fromMarch % 146097
  let y := yearOfEra d
  let dayOfYear := d - firstDayOfYear y
  let m := (5 * dayOfYear + 2) / 153
  let day := dayOfYear - (153 * m + 2) / 5 + 1
  let month := if m < 10 then m + 3 else m - 9
  (y + fromMarch / 146097 * 400 + (if month ≤ 2 then 1 else 0), month, day)

/-- The minute with a number, counted from the beginning of the year 1. -/
def civilMinute (n : Nat) : CivilMinute :=
  let (year, month, day) := civilDay (n / 1440)
  ⟨year, month, day, n % 1440 / 60, n % 60⟩

/-- The beginning of the year 1 and the last second of the year 9999. -/
def firstSecond : Int := -62135596800

def lastSecond : Int := 253402300799

/-- The minute in which a second lies, counted from the beginning of 1970. -/
def ofEpoch? (e : Int) : Option CivilMinute :=
  if firstSecond ≤ e ∧ e ≤ lastSecond then some (civilMinute ((e - firstSecond).toNat / 60))
  else none

end Calendar

namespace CivilMinute

def twoDigits (n : Nat) : String := if n < 10 then "0" ++ toString n else toString n

/-- Year, month, day, hour and minute; the year has as many digits as it needs. -/
def written (c : CivilMinute) : String :=
  toString c.year ++ "-" ++ twoDigits c.month ++ "-" ++ twoDigits c.day ++ " " ++
    twoDigits c.hour ++ ":" ++ twoDigits c.minute ++ " UTC"

end CivilMinute
end GrammarBindings
