import Muster.Count

/-!
# JSON values

Values with objects as ordered lists of fields, and the readers that records are decoded with. A
record is an object, whose unknown fields are ignored, or an array with exactly the fields of the
record in their order.
-/

namespace Muster

/-- A JSON value. Numbers with a fraction or an exponent are kept apart from the integers. -/
inductive Json where
  | null
  | bool (value : Bool)
  | integer (value : Int)
  | decimal (mantissa : Int) (places : Nat)
  | string (value : String)
  | array (elements : List Json)
  | object (fields : List (String × Json))
deriving Inhabited

namespace Json

/-- The value of a field of an object. -/
def field? (name : String) (fields : List (String × Json)) : Option Json :=
  (fields.find? fun f => f.1 == name).map Prod.snd

/-- The fields of a record with these names, in their order; `none` stands for a missing one. -/
def record? (names : List String) : Json → Option (List (Option Json))
  | object fields => some (names.map fun name => field? name fields)
  | array elements => if elements.length = names.length then some (elements.map some) else none
  | _ => none

/-- The name and the content of a variant: a text alone, or an object with one field. -/
def variant? : Json → Option (String × Option Json)
  | string name => some (name, none)
  | object [(name, content)] => some (name, some content)
  | _ => none

def asText? : Json → Option String
  | string s => some s
  | _ => none

/-- An integer that fits a count. -/
def asCount? : Json → Option Count
  | integer n => if 0 ≤ n ∧ n < 4294967296 then some (UInt32.ofNat n.toNat) else none
  | _ => none

/-- A list whose elements are all read by `f`. -/
def asList? {α : Type} (f : Json → Option α) : Json → Option (List α)
  | array elements => elements.mapM f
  | _ => none

/-- A field that may be missing or null. -/
def optional? {α : Type} (f : Json → Option α) : Option Json → Option (Option α)
  | none | some null => some none
  | some j => (f j).map some

/-- A null for an absent value. -/
def ofOption {α : Type} (f : α → Json) : Option α → Json
  | none => null
  | some a => f a

/-- A count as an integer. -/
def ofCount (n : Count) : Json := integer n.toNat

end Json

end Muster
