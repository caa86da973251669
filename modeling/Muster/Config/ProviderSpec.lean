import Muster.Model
import Muster.Text.Decimal
import Muster.Text.Printable
import Muster.Text.Split

/-!
# Declared providers

A provider is declared as `name:kind:classes` or `name:kind:classes:limit`. The classes are
separated by bars, and an underscore alone is the class of work without a label.
-/

namespace Muster

/-- Why a configuration is refused. -/
inductive ConfigError where
  /-- A variable does not hold a value of its kind. -/
  | invalidValue (variableName value : String)
  /-- A text does not declare a provider. -/
  | invalidProvider (spec : String)
deriving DecidableEq, Repr

def ConfigError.message : ConfigError → String
  | invalidValue variableName value =>
    "invalid value for " ++ variableName ++ ": " ++ Quoted.quote value
  | invalidProvider spec =>
    "invalid provider spec " ++ Quoted.quote spec ++ ", expected name:kind:class|class[:limit]"

/-- A declared provider. -/
structure ProviderSpec where
  name : String
  kind : String
  classes : List ResourceClass
  /-- Units it may hold of each class; without it there is no ceiling. -/
  limit : Option Count
deriving DecidableEq, Repr

namespace ProviderSpec

/-- The class that a piece between bars stands for. -/
def classOfChars (cs : List Char) : ResourceClass :=
  if cs = ['_'] then .unlabeled else .label (String.ofList cs)

/-- The text of a class between bars. -/
def classChars : ResourceClass → List Char
  | .unlabeled => ['_']
  | .label name => name.toList

/-- A limit in decimal. -/
def limitOfChars? (cs : List Char) : Option Count :=
  (Decimal.read UInt32.size cs).map UInt32.ofNat

/-- The declaration made of these parts; the first three must not be empty. -/
def ofParts? (name kind classes : List Char) (limit : Option Count) : Option ProviderSpec :=
  if name = [] ∨ kind = [] ∨ classes = [] then none
  else some ⟨String.ofList name, String.ofList kind, (Split.split '|' classes).map classOfChars, limit⟩

/-- Reads a declaration, blanks around it aside. -/
def ofChars? (cs : List Char) : Option ProviderSpec :=
  match Split.split ':' (Blank.trim cs) with
  | [name, kind, classes] => ofParts? name kind classes none
  | [name, kind, classes, limit] =>
    (limitOfChars? limit).bind fun n => ofParts? name kind classes (some n)
  | _ => none

/-- Reads a declaration, blanks around it aside. The error shows the text with its blanks. -/
def parse (spec : String) : Except ConfigError ProviderSpec :=
  match ofChars? spec.toList with
  | some p => .ok p
  | none => .error (.invalidProvider spec)

/-- The declaration of a provider. -/
def toChars (p : ProviderSpec) : List Char :=
  p.name.toList ++ ':' :: p.kind.toList ++ ':' :: Split.join '|' (p.classes.map classChars) ++
    match p.limit with
    | none => []
    | some n => ':' :: Decimal.encode n.toNat

end ProviderSpec

end Muster
