import Muster.Id.Text
import Muster.Instant.Text
import Muster.Json
import Muster.Model

/-!
# Work and capacity in JSON

Identifiers and instants are texts. A class is the text `unlabeled` or an object with the one field
`label`; the object with the one field `unlabeled` and null in it is read as well.
-/

namespace Muster

/-- An identifier is its text. -/
def Id.toJson {k : IdKind} (i : Id k) : Json := .string i.toText

def Id.ofJson? (k : IdKind) (j : Json) : Option (Id k) :=
  j.asText?.bind fun text => (Id.parse k text).toOption

def Instant.toJson (t : Instant) : Json := .string t.toText

def Instant.ofJson? (j : Json) : Option Instant := j.asText?.bind Instant.parse?

namespace ResourceClass

def toJson : ResourceClass → Json
  | unlabeled => .string "unlabeled"
  | label name => .object [("label", .string name)]

def ofJson? (j : Json) : Option ResourceClass := do
  match ← j.variant? with
  | ("unlabeled", none) | ("unlabeled", some .null) => some unlabeled
  | ("label", some (.string name)) => some (label name)
  | _ => none

end ResourceClass

namespace WorkItem

def toJson (w : WorkItem) : Json :=
  .object [("id", w.id.toJson), ("class", w.resource.toJson), ("enqueued_at", w.enqueuedAt.toJson)]

def ofJson? (j : Json) : Option WorkItem := do
  match ← j.record? ["id", "class", "enqueued_at"] with
  | [some id, some resource, some enqueuedAt] =>
    some ⟨← Id.ofJson? _ id, ← ResourceClass.ofJson? resource, ← Instant.ofJson? enqueuedAt⟩
  | _ => none

end WorkItem

namespace PlannedCapacity

def toJson (p : PlannedCapacity) : Json :=
  .object [("id", p.id.toJson), ("provider_id", p.provider.toJson), ("class", p.resource.toJson),
    ("units", .ofCount p.units)]

def ofJson? (j : Json) : Option PlannedCapacity := do
  match ← j.record? ["id", "provider_id", "class", "units"] with
  | [some id, some provider, some resource, some units] =>
    some ⟨← Id.ofJson? _ id, ← Id.ofJson? _ provider, ← ResourceClass.ofJson? resource,
      ← units.asCount?⟩
  | _ => none

end PlannedCapacity

end Muster
