import Muster.Id

/-!
# Identifiers as text

An identifier is written as the tag of its kind, an underscore and 26 digits in base 32. Reading
splits at the first underscore and accepts digits of either case. The 26 digits hold 130 bits, of
which the upper two are dropped.

Base 32 is Crockford's: the ten digits and the letters without I, L, O and U, most significant digit
first. Letters are written in upper case and read in either.
-/

namespace Muster

/-! ## Base 32 -/

namespace Base32

/-- The digits in the order of their values. -/
def alphabet : List Char := "0123456789ABCDEFGHJKMNPQRSTVWXYZ".toList

/-- The digit of a value below 32. -/
def digit (n : Nat) : Char := alphabet.getD n '0'

/-- The value of a digit. -/
def value? (c : Char) : Option Nat := alphabet.findIdx? (· == c.toUpper)

/-- The lowest `width` digits of `n`. -/
def encode : (width : Nat) → (n : Nat) → List Char
  | 0, _ => []
  | width + 1, n => encode width (n / 32) ++ [digit (n % 32)]

/-- The number that follows `acc` when the digits of `cs` are appended to it. -/
def decodeFrom (acc : Nat) : List Char → Option Nat
  | [] => some acc
  | c :: cs => (value? c).bind fun d => decodeFrom (acc * 32 + d) cs

/-- The number with these digits. -/
def decode (cs : List Char) : Option Nat := decodeFrom 0 cs

end Base32

/-! ## Errors -/

/-- Why the digits of an identifier could not be read. -/
inductive UlidError where
  | length
  | character
deriving DecidableEq, Repr

/-- Why a text is not an identifier. -/
inductive IdError where
  | empty
  | missingSeparator
  | wrongTag (expected actual : String)
  | badUlid (cause : UlidError)
deriving DecidableEq, Repr

def UlidError.message : UlidError → String
  | length => "invalid length"
  | character => "invalid character"

def IdError.message : IdError → String
  | empty => "ID cannot be empty"
  | missingSeparator => "ID missing underscore separator"
  | wrongTag expected actual =>
    "invalid ID prefix: expected '" ++ expected ++ "', got '" ++ actual ++ "'"
  | badUlid cause => "invalid ULID: " ++ cause.message

/-- The text belongs to another kind of identifier. -/
def IdError.isWrongTag : IdError → Bool
  | wrongTag _ _ => true
  | _ => false

/-! ## Writing and reading -/

namespace Ulid

/-- The 26 digits of a ULID. -/
def toChars (u : Ulid) : List Char := Base32.encode 26 u.val

/-- Reads 26 digits. The length is counted in bytes of UTF-8. -/
def ofChars (cs : List Char) : Except UlidError Ulid :=
  if (String.ofList cs).utf8ByteSize ≠ 26 then .error .length
  else match Base32.decode cs with
    | some n => .ok (ofNat n)
    | none => .error .character

end Ulid

namespace Id

variable {k : IdKind}

/-- Tag, underscore, digits. -/
def toChars (i : Id k) : List Char := k.tag.toList ++ '_' :: i.ulid.toChars

/-- The written form of an identifier. -/
def toText (i : Id k) : String := String.ofList i.toChars

instance : ToString (Id k) := ⟨toText⟩
instance : Repr (Id k) := ⟨fun i _ => i.toText⟩

/-- Reads an identifier of kind `k`; the first fault that is met is reported. -/
def ofChars (k : IdKind) (cs : List Char) : Except IdError (Id k) :=
  if cs = [] then .error .empty
  else match cs.dropWhile (· != '_') with
    | [] => .error .missingSeparator
    | _ :: digits =>
      let tag := cs.takeWhile (· != '_')
      if tag ≠ k.tag.toList then .error (.wrongTag k.tag (String.ofList tag))
      else match Ulid.ofChars digits with
        | .ok u => .ok ⟨u⟩
        | .error cause => .error (.badUlid cause)

/-- Reads an identifier of kind `k`. -/
def parse (k : IdKind) (text : String) : Except IdError (Id k) := ofChars k text.toList

end Id

end Muster
