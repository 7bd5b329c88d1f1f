/-!
# ProgramGraph.Time.Instant

Instants in universal time, and the calendar.

* `Date`         — a day of the proleptic Gregorian calendar; the year before year 1 is year 0.
* `Date.toDays`, `Date.ofDays` — days since the first of January 1970, and back. Both count from the first of March of a
  year 0, so that a leap day is the last day of its year, in cycles of 400 years.
* `Instant`      — seconds since the beginning of 1970, and nanoseconds. A leap second belongs to the second before it: it
  has a thousand million nanoseconds or more.
* `Instant.ofUnix?` — an instant within the calendar.
-/

namespace ProgramGraph.Time

/-- A day of the calendar. -/
structure Date where
  year : Int
  /-- From 1 to 12. -/
  month : Nat
  /-- From 1. -/
  day : Nat
  deriving DecidableEq, Repr

/-- Days in 400 years. -/
def cycleDays : Int := 146097

/-- Days from the first of March of year 0 to the first of January 1970. -/
def epochDays : Int := 719468

namespace Date

def isLeapYear (year : Int) : Bool :=
  year % 4 = 0 && (year % 100 ≠ 0 || year % 400 = 0)

def daysInMonth (year : Int) (month : Nat) : Nat :=
  if month = 2 then (if isLeapYear year then 29 else 28)
  else if month = 4 || month = 6 || month = 9 || month = 11 then 30
  else 31

def minYear : Int := -262143

def maxYear : Int := 262142

/-- A day, if the calendar has it. -/
def ofYmd? (year : Int) (month day : Nat) : Option Date :=
  if minYear ≤ year && year ≤ maxYear && 1 ≤ month && month ≤ 12 && 1 ≤ day && day ≤ daysInMonth year month then
    some ⟨year, month, day⟩
  else none

/-- Days since the first of January 1970. -/
def toDays (d : Date) : Int :=
  let year := if d.month ≤ 2 then d.year - 1 else d.year
  let cycle := year / 400
  let yearOfCycle := year % 400
  let monthFromMarch : Int := (d.month + 9) % 12
  let dayOfYear := (153 * monthFromMarch + 2) / 5 + d.day - 1
  let dayOfCycle := yearOfCycle * 365 + yearOfCycle / 4 - yearOfCycle / 100 + dayOfYear
  cycle * cycleDays + dayOfCycle - epochDays

/-- The day that many days after the first of January 1970. -/
def ofDays (days : Int) : Date :=
  let z := days + epochDays
  let cycle := z / cycleDays
  let dayOfCycle := z % cycleDays
  let yearOfCycle := (dayOfCycle - dayOfCycle / 1460 + dayOfCycle / 36524 - dayOfCycle / 146096) / 365
  let dayOfYear := dayOfCycle - (365 * yearOfCycle + yearOfCycle / 4 - yearOfCycle / 100)
  let monthFromMarch := (5 * dayOfYear + 2) / 153
  let day := dayOfYear - (153 * monthFromMarch + 2) / 5 + 1
  let month := if monthFromMarch < 10 then monthFromMarch + 3 else monthFromMarch - 9
  let year := yearOfCycle + cycle * 400
  ⟨if month ≤ 2 then year + 1 else year, month.toNat, day.toNat⟩

end Date

def daySeconds : Int := 86400

def secondNanos : Nat := 1000000000

/-- An instant in universal time. -/
structure Instant where
  /-- Whole seconds since the beginning of 1970, leap seconds not counted. -/
  seconds : Int
  /-- Nanoseconds, of which a leap second has a thousand million or more. -/
  nanos : Nat
  deriving DecidableEq, Repr

namespace Instant

def date (i : Instant) : Date :=
  .ofDays (i.seconds / daySeconds)

def secondOfDay (i : Instant) : Nat :=
  (i.seconds % daySeconds).toNat

/-- Whether the instant lies in a leap second. -/
def isLeap (i : Instant) : Bool :=
  secondNanos ≤ i.nanos

/-- An instant whose day is in the calendar; only the last second of a minute can be followed by a leap second. -/
def ofUnix? (seconds : Int) (nanos : Nat) : Option Instant :=
  let i : Instant := ⟨seconds, nanos⟩
  if Date.minYear ≤ i.date.year && i.date.year ≤ Date.maxYear && nanos < 2 * secondNanos
      && (nanos < secondNanos || seconds % 60 = 59) then
    some i
  else none

end Instant
end ProgramGraph.Time
