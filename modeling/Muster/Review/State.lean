import Muster.Capacity.Budget
import Muster.Capacity.Counts
import Muster.Queue

/-!
# What a review knows

A review works on a snapshot that is taken when it begins. Every strategy of the chain sees what
the strategies before it have planned: counts, budgets and links are kept up to date here, whatever
happens to the queue in the meantime.
-/

namespace Muster

/-- Demand and capacity for one class under review. -/
structure ClassDemand where
  /-- Buildable items in the order in which they will run. -/
  items : List PendingItem
  counts : CapacityCounts
deriving DecidableEq, Inhabited

/-- The demand in a snapshot. -/
def ClassDemand.ofSnapshot (s : Snapshot) : ClassDemand :=
  ⟨s.items, ⟨Count.ofLength s.items.length, s.available, s.inFlight⟩⟩

/-- What one review knows and has planned. -/
structure ReviewState where
  review : ReviewId
  classes : Table ResourceClass ClassDemand := ∅
  /-- Units in flight with each provider, those planned in this review included. -/
  plannedByProvider : Table ProviderId Count := ∅
  /-- Capacity planned in this review. -/
  planned : List PlannedCapacity := []
  budget : Budget Slot := .empty

namespace ReviewState

/-- Adds a class, or replaces what is known about it. -/
def withClass (s : ReviewState) (resource : ResourceClass) (snapshot : Snapshot) : ReviewState :=
  { s with classes := s.classes.insert resource (.ofSnapshot snapshot) }

/-- The state at the beginning of a review of these classes. -/
def capture (review : ReviewId) (q : Queue) (resources : List ResourceClass) : ReviewState :=
  let start : ReviewState := { review, plannedByProvider := q.inFlightByProvider }
  resources.foldl (fun s r => s.withClass r (q.snapshot r)) start

/-- Demand for a class that is not covered; none for a class that is not under review. -/
def unsatisfied (s : ReviewState) (resource : ResourceClass) : Count :=
  match s.classes.find? resource with
  | none => 0
  | some d => d.counts.shortfall

/-- Demand that is not covered, over all classes. -/
def totalUnsatisfied (s : ReviewState) : Count :=
  Count.satSum (s.classes.values.map fun d => d.counts.shortfall)

/-- Units in flight with a provider. -/
def plannedFor (s : ReviewState) (provider : ProviderId) : Count :=
  s.plannedByProvider.findD provider 0

/-- What is left of a provider's limit; `limit` is what the first look-up of the slot reads. -/
def remainingLimit (s : ReviewState) (slot : Slot) (limit : Count) : Count × ReviewState :=
  let (left, budget) := s.budget.lookUp slot limit
  (left, { s with budget })

/-- The first unit that is left, and the units after it. -/
def nextUnit? : List (PlannedId × Nat) → Option (PlannedId × List (PlannedId × Nat))
  | [] => none
  | (_, 0) :: rest => nextUnit? rest
  | (id, n + 1) :: rest => some (id, (id, n) :: rest)

/-- Gives each item without a link one unit, in the order of both, as long as there are units. -/
def linkUnits (units : List (PlannedId × Nat)) : List PendingItem → List PendingItem × List Link
  | [] => ([], [])
  | p :: items =>
    if p.planned.isSome then
      let (rest, links) := linkUnits units items
      (p :: rest, links)
    else match nextUnit? units with
      | none => (p :: items, [])
      | some (id, left) =>
        let (rest, links) := linkUnits left items
        ({ p with planned := some id } :: rest, ⟨p.item.id, id⟩ :: links)

/-- Records what a provider planned for a class, and says which items were linked to it. -/
def recordPlanned (s : ReviewState) (resource : ResourceClass) (provider : ProviderId)
    (planned : List PlannedCapacity) : List Link × ReviewState :=
  let units := PlannedCapacity.totalUnits planned
  let s := { s with
    budget := (s.budget.consume ⟨provider, resource⟩ units).2
    plannedByProvider := s.plannedByProvider.insert provider (s.plannedFor provider + units)
    planned := s.planned ++ planned }
  match s.classes.find? resource with
  | none => ([], s)
  | some d =>
    let (items, links) := linkUnits (planned.map fun p => (p.id, p.units.toNat)) d.items
    (links, { s with classes := s.classes.insert resource ⟨items, d.counts.recordPlanned units⟩ })

/-- Units planned in this review. -/
def unitsRequested (s : ReviewState) : Count := PlannedCapacity.totalUnits s.planned

end ReviewState

end Muster
