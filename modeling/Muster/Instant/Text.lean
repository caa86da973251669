import Muster.Instant
import Muster.Text.Decimal
import Muster.Text.Split

/-!
# Instants as text

Instants are written as RFC 3339 in Universal Time, with no fraction or with 3, 6 or 9 digits of it,
the fewest that hold the value. Reading takes any offset from Universal Time and is lenient about
blanks between the parts, as well as about the case and form of the separators.
-/

namespace Muster.Instant

open Calendar

/-- The day number of the first of January 1970. -/
def epochDay : Int := 719528

/-! ## Writing -/

/-- Four digits for the years 0 to 9999; for others a sign and at least four digits. -/
def yearChars (y : Int) : List Char :=
  if 0 ≤ y ∧ y ≤ 9999 then Decimal.fixed 4 y.toNat
  else (if y < 0 then '-' else '+') :: Decimal.padded 4 y.natAbs

/-- The fraction of a second, in 0, 3, 6 or 9 digits. -/
def fractionChars (nanos : Nat) : List Char :=
  if nanos = 0 then []
  else if nanos % 1000000 = 0 then '.' :: Decimal.fixed 3 (nanos / 1000000)
  else if nanos % 1000 = 0 then '.' :: Decimal.fixed 6 (nanos / 1000)
  else '.' :: Decimal.fixed 9 nanos

/-- The written form of an instant. -/
def toChars (t : Instant) : List Char :=
  let date := dateOf (t.seconds / 86400 + epochDay)
  let time := (t.seconds % 86400).toNat
  -- In a leap second the count of nanoseconds has passed a full second.
  let second := time % 60 + t.nanos / 1000000000
  yearChars date.year ++ '-' :: Decimal.fixed 2 date.month ++ '-' :: Decimal.fixed 2 date.day ++
    'T' :: Decimal.fixed 2 (time / 3600) ++ ':' :: Decimal.fixed 2 (time / 60 % 60) ++
    ':' :: Decimal.fixed 2 second ++ fractionChars (t.nanos % 1000000000) ++ ['Z']

/-- The written form of an instant. -/
def toText (t : Instant) : String := String.ofList t.toChars

/-! ## Reading

Each reader takes a part off the front of a text and gives back the rest. -/

/-- One to `most` digits. -/
def digits? (most : Nat) (cs : List Char) : Option (Nat × List Char) :=
  let taken := (cs.take most).takeWhile Char.isDigit
  (Decimal.decode taken).map (·, cs.drop taken.length)

/-- Blanks, then one to two digits of a number between `low` and `high`. -/
def field? (low high : Nat) (cs : List Char) : Option (Nat × List Char) := do
  let (n, rest) ← digits? 2 (Blank.trimLeft cs)
  if low ≤ n ∧ n ≤ high then some (n, rest) else none

/-- Blanks, then a year: up to four digits, or a sign and any number of digits. -/
def year? (cs : List Char) : Option (Int × List Char) :=
  match Blank.trimLeft cs with
  | '-' :: rest => (digits? rest.length rest).map fun (n, rest) => (-(n : Int), rest)
  | '+' :: rest => (digits? rest.length rest).map fun (n, rest) => ((n : Int), rest)
  | rest => (digits? 4 rest).map fun (n, rest) => ((n : Int), rest)

/-- Blanks, then the character `c`. -/
def mark? (c : Char) (cs : List Char) : Option (List Char) :=
  match Blank.trimLeft cs with
  | d :: rest => if d = c then some rest else none
  | [] => none

/-- What stands between the date and the time. -/
def separator? : List Char → Option (List Char)
  | 'T' :: rest | 't' :: rest | ' ' :: rest => some rest
  | _ => none

/-- A point and digits, of which the first nine count. Without a point there is no fraction. -/
def fraction? : List Char → Option (Nat × List Char)
  | '.' :: cs => do
    let (n, rest) ← digits? 9 cs
    let width := cs.length - rest.length
    some (Decimal.shift (9 - width) n, rest.dropWhile Char.isDigit)
  | cs => some (0, cs)

/-- The value of two digits, of which the first is at most `high`. -/
def twoDigits? (high : Nat) : List Char → Option (Nat × List Char)
  | a :: b :: rest => do
    let x ← Decimal.value? a
    let y ← Decimal.value? b
    if x ≤ high then some (x * 10 + y, rest) else none
  | _ => none

/-- Hours and minutes, with blanks or colons between them, in seconds. -/
def hoursAndMinutes? (cs : List Char) : Option (Int × List Char) := do
  let (hours, rest) ← twoDigits? 9 cs
  let (minutes, rest) ← twoDigits? 5 (rest.dropWhile fun c => c == ':' || Blank.isBlank c)
  some ((hours * 3600 + minutes * 60 : Nat), rest)

/-- The offset from Universal Time in seconds. -/
def offset? (cs : List Char) : Option (Int × List Char) :=
  if (cs.take 3).map Char.toUpper = ['U', 'T', 'C'] then some (0, cs.drop 3)
  else match cs with
    | 'Z' :: rest | 'z' :: rest => some (0, rest)
    | '+' :: rest => hoursAndMinutes? rest
    | '-' :: rest | '−' :: rest => (hoursAndMinutes? rest).map fun (s, rest) => (-s, rest)
    | _ => none

/-- The years for which there are dates. -/
def yearInRange (y : Int) : Bool := -262143 ≤ y && y ≤ 262142

/-- Reads an instant. -/
def ofChars? (cs : List Char) : Option Instant := do
  let (year, cs) ← year? cs
  let cs ← mark? '-' cs
  let (month, cs) ← field? 1 12 cs
  let cs ← mark? '-' cs
  let (day, cs) ← field? 1 31 cs
  let cs ← separator? cs
  let (hour, cs) ← field? 0 23 cs
  let cs ← mark? ':' cs
  let (minute, cs) ← field? 0 59 cs
  let cs ← mark? ':' cs
  let (second, cs) ← field? 0 60 cs
  let (nanos, cs) ← fraction? cs
  let (offset, cs) ← offset? (Blank.trimLeft cs)
  guard (Blank.trimLeft cs = [])
  let date : Date := ⟨year, month, day⟩
  guard (yearInRange year && date.valid && offset.natAbs < 86400)
  let leap := second = 60
  let time : Int := hour * 3600 + minute * 60 + (if leap then 59 else second : Nat)
  let seconds := (date.dayNumber - epochDay) * 86400 + time - offset
  guard (yearInRange (yearOf (seconds / 86400 + epochDay)))
  some ⟨seconds, if leap then nanos + 1000000000 else nanos⟩

/-- Reads an instant. -/
def parse? (text : String) : Option Instant := ofChars? text.toList

/-- The instant with these seconds and nanoseconds, if the calendar has it. A leap second can only
follow the last second of a minute. -/
def ofTimestamp? (seconds : Int) (nanos : Nat) : Option Instant :=
  if yearInRange (yearOf (seconds / 86400 + epochDay)) &&
      (nanos < 1000000000 || (nanos < 2000000000 && seconds % 60 == 59)) then
    some ⟨seconds, nanos⟩
  else none

end Muster.Instant
