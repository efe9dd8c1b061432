import Mathlib.Algebra.Order.Ring.Int

/-! # Days and dates

The proleptic Gregorian calendar. A date is the number of its day, so every value is a date; year,
month and day are computed from it by cutting off cycles of 400, 100, 4 and 1 years.
-/
namespace WatchMe.Text

def secondsPerDay : Int := 86400

def isLeapYear (year : Int) : Bool :=
  year % 4 == 0 && (year % 100 != 0 || year % 400 == 0)

def monthLengths (year : Int) : List Nat :=
  [31,if isLeapYear year then 29 else 28,31,30,31,30,31,31,30,31,30,31]

/-- The days from the first day of the year 1 to the first day of the year. -/
def daysBeforeYear (year : Int) : Int :=
  let past := year - 1
  365 * past + past / 4 - past / 100 + past / 400

/-- Days after the first of January 1970. -/
structure Date where
  days : Int
  deriving DecidableEq, Repr

namespace Date

/-- The days from the first day of the year 1 to the first of January 1970. -/
def epoch : Int := 719162

def ofYmd? (year : Int) (month day : Nat) : Option Date :=
  match month, (monthLengths year)[month - 1]? with
  | 0, _ | _, none => none
  | month + 1, some length =>
    if 1 ≤ day ∧ day ≤ length then
      some ⟨daysBeforeYear year + ((monthLengths year).take month).sum + (day - 1) - epoch⟩
    else none

def year (date : Date) : Int :=
  let n := date.days + epoch
  let inCycle := n % 146097
  let centuries := min (inCycle / 36524) 3
  let inCentury := inCycle - 36524 * centuries
  let inOlympiad := inCentury % 1461
  400 * (n / 146097) + 100 * centuries + 4 * (inCentury / 1461) + min (inOlympiad / 365) 3 + 1

/-- The month and the day, from the days that are left of the year. -/
def monthAndDay : List Nat → Nat → Nat → Nat × Nat
  | [], month, left => (month,left + 1)
  | length :: lengths, month, left =>
    if left < length then (month,left + 1) else monthAndDay lengths (month + 1) (left - length)

/-- `with_year`: there is no such day in the year for the last of February in a leap year. -/
def withYear (date : Date) (year : Int) : Option Date :=
  let left := (date.days + epoch - daysBeforeYear date.year).toNat
  let (month,day) := monthAndDay (monthLengths date.year) 1 left
  ofYmd? year month day

def plusDays (date : Date) (n : Int) : Date := ⟨date.days + n⟩

end Date

end WatchMe.Text
