/-!
# Decimal numbers

Natural numbers in decimal. The reader is strict about what it accepts: ASCII digits, at least one,
with an optional plus sign in front, and a value below a bound.
-/

namespace Muster.Decimal

/-- The digits of `n`, without leading zeros. -/
def encode (n : Nat) : List Char := Nat.toDigits 10 n

/-- The value of an ASCII digit. -/
def value? (c : Char) : Option Nat := if c.isDigit then some (c.toNat - '0'.toNat) else none

/-- The number that follows `acc` when the digits of `cs` are appended to it. -/
def decodeFrom (acc : Nat) : List Char → Option Nat
  | [] => some acc
  | c :: cs => (value? c).bind fun d => decodeFrom (acc * 10 + d) cs

/-- The number with these digits; there has to be one. -/
def decode : List Char → Option Nat
  | [] => none
  | c :: cs => decodeFrom 0 (c :: cs)

/-- A number below `bound`, with an optional plus sign. -/
def read (bound : Nat) (cs : List Char) : Option Nat :=
  let digits := match cs with
    | '+' :: rest => rest
    | _ => cs
  (decode digits).bind fun n => if n < bound then some n else none

/-- `n` with `places` zeros behind it. -/
def shift : (places : Nat) → (n : Nat) → Nat
  | 0, n => n
  | places + 1, n => shift places (n * 10)

/-- `n` in at least `width` places. -/
def padded (width n : Nat) : List Char :=
  let digits := encode n
  List.replicate (width - digits.length) '0' ++ digits

/-- The lowest `width` digits of `n`. -/
def fixed : (width : Nat) → (n : Nat) → List Char
  | 0, _ => []
  | width + 1, n => fixed width (n / 10) ++ [Nat.digitChar (n % 10)]

end Muster.Decimal
