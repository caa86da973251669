import Muster.Json
import Muster.Text.Decimal

/-!
# JSON as text

The compact form: no blanks, fields in their order. In a text only the quote, the backslash and the
characters below the space are escaped, so a value is always a single line.
-/

namespace Muster.Json

/-- One character inside a text. -/
def escape (c : Char) : List Char :=
  match c with
  | '"' => ['\\', '"']
  | '\\' => ['\\', '\\']
  | '\x08' => ['\\', 'b']
  | '\t' => ['\\', 't']
  | '\n' => ['\\', 'n']
  | '\x0c' => ['\\', 'f']
  | '\r' => ['\\', 'r']
  | c =>
    if c.toNat < 0x20 then
      ['\\', 'u', '0', '0', Nat.digitChar (c.toNat / 16), Nat.digitChar (c.toNat % 16)]
    else [c]

/-- A text in quotes. -/
def textChars (s : String) : List Char := '"' :: s.toList.flatMap escape ++ ['"']

def integerChars (n : Int) : List Char :=
  if n < 0 then '-' :: Decimal.encode n.natAbs else Decimal.encode n.natAbs

mutual

/-- The compact form of a value. -/
def toChars : Json → List Char
  | null => ['n', 'u', 'l', 'l']
  | bool true => ['t', 'r', 'u', 'e']
  | bool false => ['f', 'a', 'l', 's', 'e']
  | integer n => integerChars n
  | decimal m places => integerChars m ++ 'e' :: '-' :: Decimal.encode places
  | string s => textChars s
  | array elements => '[' :: elementChars elements ++ [']']
  | object fields => '\x7b' :: fieldChars fields ++ ['\x7d']

/-- Elements with commas between them. -/
def elementChars : List Json → List Char
  | [] => []
  | [j] => toChars j
  | j :: next :: rest => toChars j ++ ',' :: elementChars (next :: rest)

/-- Fields with commas between them. -/
def fieldChars : List (String × Json) → List Char
  | [] => []
  | [(name, j)] => textChars name ++ ':' :: toChars j
  | (name, j) :: next :: rest => textChars name ++ ':' :: toChars j ++ ',' :: fieldChars (next :: rest)

end

/-- The compact form of a value. -/
def toText (j : Json) : String := String.ofList j.toChars

end Muster.Json
