import Muster.Count
import Muster.Id
import Muster.Instant

/-!
# Work and capacity

Work items wait for capacity of their class. Capacity is planned with a provider for one class and
comes online some time later; each of its units can run one work item. A slot is one provider's
capacity for one class; ceilings and budgets are kept per slot.
-/

namespace Muster

/-- Which capacity a work item can run on: work without a label has a class of its own. -/
inductive ResourceClass where
  | unlabeled
  | label (name : String)
deriving DecidableEq, Repr, Inhabited

namespace ResourceClass

/-- The label, if there is one. -/
def toLabel : ResourceClass → Option String
  | unlabeled => none
  | label name => some name

/-- The class with this label, or without one. -/
def ofLabel : Option String → ResourceClass
  | none => unlabeled
  | some name => label name

/-- The class as messages show it. -/
def display : ResourceClass → String
  | unlabeled => "<unlabeled>"
  | label name => name

/-- Work without a label comes first, then the labels in the order of their characters. -/
instance : Ord ResourceClass where
  compare
    | unlabeled, unlabeled => .eq
    | unlabeled, label _ => .lt
    | label _, unlabeled => .gt
    | label a, label b => compare a b

instance : Std.TransOrd ResourceClass where
  eq_swap := by
    intro a b
    cases a <;> cases b
    · rfl
    · rfl
    · rfl
    · exact @Std.OrientedCmp.eq_swap String compare _ _ _
  isLE_trans := by
    intro a b c hab hbc
    cases a <;> cases b <;> cases c <;>
      first
      | rfl
      | exact @Std.TransCmp.isLE_trans String compare _ _ _ _ hab hbc
      | exact absurd hab Bool.false_ne_true
      | exact absurd hbc Bool.false_ne_true

instance : Std.LawfulEqOrd ResourceClass where
  compare_self := by
    intro a
    cases a
    · rfl
    · exact @Std.ReflCmp.compare_self String compare _ _
  eq_of_compare := by
    intro a b h
    cases a <;> cases b
    · rfl
    · cases h
    · cases h
    · exact congrArg label (Std.LawfulEqOrd.eq_of_compare h)

end ResourceClass

/-- A provider together with a class that it may serve. -/
structure Slot where
  provider : ProviderId
  resource : ResourceClass
deriving DecidableEq, Inhabited

namespace Slot

/-- By provider, then by class. -/
instance : Ord Slot := ⟨compareLex (compareOn provider) (compareOn resource)⟩

instance : Std.TransOrd Slot :=
  inferInstanceAs (Std.TransCmp (compareLex (compareOn provider) (compareOn resource)))

instance : Std.LawfulEqOrd Slot where
  compare_self {a} :=
    @Std.ReflCmp.compare_self Slot (compareLex (compareOn provider) (compareOn resource)) _ a
  eq_of_compare := by
    rintro ⟨p, r⟩ ⟨q, s⟩ h
    have h : (compare p q).then (compare r s) = .eq := h
    obtain ⟨hp, hr⟩ := Ordering.then_eq_eq.1 h
    cases Std.LawfulEqOrd.eq_of_compare hp
    cases Std.LawfulEqOrd.eq_of_compare hr
    rfl

end Slot

/-- A piece of work that waits for capacity. -/
structure WorkItem where
  id : WorkItemId
  resource : ResourceClass
  enqueuedAt : Instant
deriving DecidableEq, Inhabited

/-- Earlier items come first; of two of the same instant, the one with the smaller identifier. -/
def WorkItem.before (a b : WorkItem) : Bool :=
  a.enqueuedAt.lt b.enqueuedAt ||
    (a.enqueuedAt == b.enqueuedAt && decide (a.id.toNat < b.id.toNat))

/-- A work item with the planned capacity that is meant for it. -/
structure PendingItem where
  item : WorkItem
  planned : Option PlannedId
deriving DecidableEq, Inhabited

/-- Capacity that a provider has accepted to create. -/
structure PlannedCapacity where
  id : PlannedId
  provider : ProviderId
  resource : ResourceClass
  /-- Work items that it can run once it is online. -/
  units : Count
deriving DecidableEq, Inhabited

/-- The units of a list of planned capacities, stopping at the largest count. -/
def PlannedCapacity.totalUnits (planned : List PlannedCapacity) : Count :=
  Count.satSum (planned.map (·.units))

/-- What a strategy says about the strategies after it. -/
inductive Decision where
  | proceed
  | complete
deriving DecidableEq, Repr

/-- Without a reason to stop, the chain goes on. -/
instance : Inhabited Decision := ⟨.proceed⟩

/-- No later strategy runs. -/
def Decision.isComplete : Decision → Bool
  | proceed => false
  | complete => true

/-- A planned capacity that is meant for a work item. -/
structure Link where
  item : WorkItemId
  planned : PlannedId
deriving DecidableEq, Inhabited

end Muster
