/-! # Instants of universal time

    An instant is a day of the Gregorian calendar, extended to all years, a second of that day
    and a count of nanoseconds. The count reaches two thousand millions: from one thousand
    millions on it stands for the leap second that follows the second it is attached to. So
    instants are ordered by comparing the three numbers in turn.
-/

namespace SeriesBroker

/-! ## The calendar -/

namespace Calendar

/-- Whether a year has 366 days. -/
def isLeap (year : Int) : Bool :=
  year % 4 == 0 && (year % 100 != 0 || year % 400 == 0)

/-- The days from the first day of year 0 to the first day of a year. -/
def daysBeforeYear (year : Int) : Int :=
  365 * year + (year + 3) / 4 - (year + 99) / 100 + (year + 399) / 400

/-- The days of a month. Only the numbers from 1 to 12 are months. -/
def daysInMonth (leap : Bool) : Nat → Nat
  | 1 => 31
  | 2 => if leap then 29 else 28
  | 3 => 31
  | 4 => 30
  | 5 => 31
  | 6 => 30
  | 7 => 31
  | 8 => 31
  | 9 => 30
  | 10 => 31
  | 11 => 30
  | 12 => 31
  | _ => 0

/-- The days from the start of a year to the start of a month. -/
def daysBeforeMonth (leap : Bool) : Nat → Nat
  | 0 => 0
  | month + 1 => daysBeforeMonth leap month + daysInMonth leap month

/-- A day given by its year, its month and its place in the month. -/
structure Date where
  year : Int
  month : Nat
  day : Nat
  deriving DecidableEq

def Date.valid (d : Date) : Bool :=
  1 ≤ d.day && d.day ≤ daysInMonth (isLeap d.year) d.month

/-- The days from the first day of year 0 to a date. -/
def Date.toDay (d : Date) : Int :=
  daysBeforeYear d.year + daysBeforeMonth (isLeap d.year) d.month + d.day - 1

/-- The year of a day. The quotient by the mean length of a year is off by one at most. -/
def yearOfDay (day : Int) : Int :=
  let guess := day * 400 / 146097
  if daysBeforeYear (guess + 1) ≤ day then guess + 1
  else if day < daysBeforeYear guess then guess - 1
  else guess

/-- The month of a day of the year, searched from `month` on, and the place in that month. -/
def monthOfDay (leap : Bool) : (remaining : Nat) → (month : Nat) → (day : Nat) → Nat × Nat
  | 0, month, day => (month, day + 1)
  | remaining + 1, month, day =>
    if day < daysInMonth leap month then (month, day + 1)
    else monthOfDay leap remaining (month + 1) (day - daysInMonth leap month)

def Date.ofDay (day : Int) : Date :=
  let year := yearOfDay day
  let (month, place) := monthOfDay (isLeap year) 11 1 (day - daysBeforeYear year).toNat
  ⟨year, month, place⟩

end Calendar

/-! ## Instants -/

/-- A point of universal time. -/
structure Instant where
  /-- Days since the first day of year 0. -/
  day : Int
  /-- Seconds since the start of the day. -/
  second : Nat
  /-- Nanoseconds, past `10 ^ 9` in a leap second. -/
  nano : Nat
  second_lt : second < 86400 := by omega
  nano_lt : nano < 2000000000 := by omega
  deriving DecidableEq

namespace Instant

def before (a b : Instant) : Bool :=
  if a.day ≠ b.day then a.day < b.day
  else if a.second ≠ b.second then a.second < b.second
  else a.nano < b.nano

/-- The instant at a second counted from the first day of year 0. -/
def ofSeconds (seconds : Int) (nano : Nat) (h : nano < 2000000000) : Instant where
  day := seconds / 86400
  second := (seconds % 86400).toNat
  nano := nano
  nano_lt := h

end Instant

end SeriesBroker
