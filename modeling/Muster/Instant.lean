/-!
# Instants and the calendar

A moment in Universal Time with nanoseconds. A leap second is the second before it with a
nanosecond count of a thousand million or more, so it comes after that second and before the next.

Dates are those of the Gregorian calendar, carried back before its introduction. Day 0 is the first
of January of the year 0, which is a leap year.
-/

namespace Muster

/-- Seconds since 1970 and nanoseconds. -/
structure Instant where
  seconds : Int
  nanos : Nat
deriving DecidableEq, Repr, Inhabited

namespace Instant

/-- The moment that many milliseconds after the start of 1970. -/
def ofMilliseconds (ms : Int) : Instant := ⟨ms / 1000, (ms % 1000).toNat * 1000000⟩

/-- Whole milliseconds since the start of 1970. -/
def milliseconds (t : Instant) : Int := t.seconds * 1000 + (t.nanos / 1000000 : Nat)

/-- `a` is earlier than `b`. -/
def lt (a b : Instant) : Bool := a.seconds < b.seconds || (a.seconds == b.seconds && a.nanos < b.nanos)

end Instant

/-! ## Dates and day numbers -/

namespace Calendar

/-- Whether a year has 366 days. -/
def isLeap (y : Int) : Bool := y % 4 == 0 && (y % 100 != 0 || y % 400 == 0)

/-- The number of the first day of a year. -/
def firstDay (y : Int) : Int := 365 * y + (y + 3) / 4 - (y + 99) / 100 + (y + 399) / 400

/-- The lengths of the months of a year. -/
def monthLengths (leap : Bool) : List Nat :=
  [31, if leap then 29 else 28, 31, 30, 31, 30, 31, 31, 30, 31, 30, 31]

/-- A year, a month from 1 and a day from 1. -/
structure Date where
  year : Int
  month : Nat
  day : Nat
deriving DecidableEq, Repr

/-- The month exists and has such a day. -/
def Date.valid (d : Date) : Bool :=
  1 ≤ d.month && 1 ≤ d.day &&
    match (monthLengths (isLeap d.year))[d.month - 1]? with
    | some length => d.day ≤ length
    | none => false

/-- The day number of a date. -/
def Date.dayNumber (d : Date) : Int :=
  let passed : Nat := ((monthLengths (isLeap d.year)).take (d.month - 1)).foldr (· + ·) 0
  firstDay d.year + passed + (d.day - 1 : Int)

/-- The year that a day belongs to. The average length of a year gives it up to one. -/
def yearOf (day : Int) : Int :=
  let guess := day * 400 / 146097
  if day < firstDay guess then guess - 1
  else if firstDay (guess + 1) ≤ day then guess + 1
  else guess

/-- The month, counted from `month`, and the day, counted from 1, that lie `offset` days after the
first of that month. -/
def monthAndDay (month : Nat) (offset : Nat) : List Nat → Nat × Nat
  | [] => (month, offset + 1)
  | length :: rest =>
    if offset < length then (month, offset + 1) else monthAndDay (month + 1) (offset - length) rest

/-- The date of a day number. -/
def dateOf (day : Int) : Date :=
  let year := yearOf day
  let (month, dayOfMonth) :=
    monthAndDay 1 (day - firstDay year).toNat (monthLengths (isLeap year))
  ⟨year, month, dayOfMonth⟩

end Calendar

end Muster
