import Muster.Id.Text
import Muster.Model
import Muster.Table

/-!
# The work queue

The queue holds work items, which wait until they are ready to run, the planned capacity that is in
flight, and the idle units of each class. An item may be linked to a planned capacity. A link counts
as long as its capacity is in flight; when an item runs elsewhere, the link passes to the first item
in line that has none.

Operations that fail give an error and no queue: the queue stays as it was.
-/

namespace Muster

/-- Why a queue operation failed. -/
inductive QueueError where
  | unknownItem (item : WorkItemId)
  | notBuildable (item : WorkItemId)
  | noCapacity (resource : ResourceClass)
  | unknownCapacity (planned : PlannedId)
deriving DecidableEq

def QueueError.message : QueueError → String
  | unknownItem item => "work item " ++ item.toText ++ " is not queued"
  | notBuildable item => "work item " ++ item.toText ++ " is not buildable"
  | noCapacity resource => "no available capacity for " ++ resource.display
  | unknownCapacity planned => "planned capacity " ++ planned.toText ++ " is not in flight"

/-- Why a link was refused. -/
inductive TrackError where
  | unknownItem (item : WorkItemId)
  /-- The item is linked to other capacity in flight. -/
  | alreadyLinked (item : WorkItemId) (existing : PlannedId)
deriving DecidableEq

def TrackError.message : TrackError → String
  | unknownItem item => "work item " ++ item.toText ++ " is not queued"
  | alreadyLinked item existing =>
    "work item " ++ item.toText ++ " already linked to " ++ existing.toText

/-- Whether an item can run. -/
inductive ItemState where
  | waiting
  | buildable
deriving DecidableEq, Repr, Inhabited

/-- The state as messages show it. -/
def ItemState.display : ItemState → String
  | waiting => "waiting"
  | buildable => "buildable"

/-- An item in the queue. -/
structure QueuedItem where
  item : WorkItem
  state : ItemState
  link : Option PlannedId
deriving DecidableEq, Inhabited

/-- The demand for a class and the capacity there is for it. -/
structure Snapshot where
  /-- Buildable items in the order in which they will run. -/
  items : List PendingItem
  available : Count
  inFlight : Count
deriving DecidableEq, Inhabited

/-- Work items and capacity. -/
structure Queue where
  items : Table WorkItemId QueuedItem := ∅
  inFlight : Table PlannedId PlannedCapacity := ∅
  available : Table ResourceClass Count := ∅
deriving DecidableEq

namespace Queue

/-- No work and no capacity. -/
def empty : Queue := {}

instance : Inhabited Queue := ⟨empty⟩

/-! ## Views -/

/-- A link that counts: its capacity is in flight. -/
def live (q : Queue) (link : Option PlannedId) : Option PlannedId :=
  link.filter fun p => q.inFlight.contains p

/-- The state of an item. -/
def stateOf (q : Queue) (id : WorkItemId) : Option ItemState := (q.items.find? id).map (·.state)

/-- The capacity an item is linked to, in flight or not. -/
def linkOf (q : Queue) (id : WorkItemId) : Option PlannedId := (q.items.find? id).bind (·.link)

/-- The items of a class that can run, in the order of their identifiers. -/
def buildable (q : Queue) (resource : ResourceClass) : List QueuedItem :=
  q.items.values.filter fun e => e.state == .buildable && e.item.resource == resource

/-- The capacity in flight for a class. -/
def inFlightOf (q : Queue) (resource : ResourceClass) : List PlannedCapacity :=
  q.inFlight.values.filter (·.resource == resource)

/-- Puts an item in front of the first one that it comes before. -/
def place (p : PendingItem) : List PendingItem → List PendingItem
  | [] => [p]
  | head :: rest => if head.item.before p.item then head :: place p rest else p :: head :: rest

/-- Items in the order in which they will run. -/
def arrange (items : List PendingItem) : List PendingItem := items.foldr place []

/-- The idle units of a class. -/
def availableOf (q : Queue) (resource : ResourceClass) : Count := q.available.findD resource 0

/-- The demand for a class and the capacity there is for it. -/
def snapshot (q : Queue) (resource : ResourceClass) : Snapshot where
  items := arrange ((q.buildable resource).map fun e => ⟨e.item, q.live e.link⟩)
  available := q.availableOf resource
  inFlight := Count.total ((q.inFlightOf resource).map (·.units))

/-- The classes that have items which can run, each once, in order. -/
def pendingClasses (q : Queue) : List ResourceClass :=
  ((q.items.values.filter (·.state == .buildable)).foldl
    (fun t e => t.insert e.item.resource ()) (∅ : Table ResourceClass Unit)).keys

/-- The identifiers of the capacity in flight for a class. -/
def inFlightIds (q : Queue) (resource : ResourceClass) : List PlannedId :=
  (q.inFlightOf resource).map (·.id)

/-- The units in flight with each provider, over all classes. -/
def inFlightByProvider (q : Queue) : Table ProviderId Count :=
  q.inFlight.values.foldl (fun t p => t.insert p.provider (t.findD p.provider 0 + p.units)) ∅

/-- The number of items. -/
def size (q : Queue) : Nat := q.items.size

/-! ## Work -/

/-- Adds an item that cannot run yet, in place of an earlier item with its identifier. -/
def submit (q : Queue) (item : WorkItem) : Queue :=
  { q with items := q.items.insert item.id ⟨item, .waiting, none⟩ }

/-- Lets an item run. The item is given back if it could not run before, for its listeners. -/
def makeBuildable (q : Queue) (id : WorkItemId) : Except QueueError (Queue × Option WorkItem) :=
  match q.items.find? id with
  | none => .error (.unknownItem id)
  | some e =>
    if e.state = .buildable then .ok (q, none)
    else .ok ({ q with items := q.items.insert id { e with state := .buildable } }, some e.item)

/-- Removes an item that will not run. -/
def cancel (q : Queue) (id : WorkItemId) : Option Queue :=
  if q.items.contains id then some { q with items := q.items.erase id } else none

/-- The item that runs first. -/
def first? : List QueuedItem → Option QueuedItem
  | [] => none
  | e :: rest =>
    match first? rest with
    | none => some e
    | some f => if f.item.before e.item then some f else some e

/-- The first item in line for a class whose link does not count. -/
def heir? (q : Queue) (resource : ResourceClass) : Option QueuedItem :=
  first? ((q.buildable resource).filter fun e => (q.live e.link).isNone)

/-- Hands a link on to the first item in line without one. -/
def bequeath (q : Queue) (resource : ResourceClass) (planned : PlannedId) : Queue :=
  match q.heir? resource with
  | none => q
  | some e => { q with items := q.items.modify e.item.id fun e => { e with link := some planned } }

/-- Runs an item on an idle unit of its class. Its link, if it counts, is handed on. -/
def assign (q : Queue) (id : WorkItemId) : Except QueueError Queue :=
  match q.items.find? id with
  | none => .error (.unknownItem id)
  | some e =>
    if e.state ≠ .buildable then .error (.notBuildable id)
    else
      let resource := e.item.resource
      let idle := q.availableOf resource
      if idle = 0 then .error (.noCapacity resource)
      else
        let rest := { q with
          items := q.items.erase id
          available := q.available.insert resource (idle - 1) }
        match q.live e.link with
        | none => .ok rest
        | some planned => .ok (rest.bequeath resource planned)

/-! ## Capacity -/

/-- Puts planned capacity in flight. -/
def recordPending (q : Queue) (planned : List PlannedCapacity) : Queue :=
  { q with inFlight := planned.foldl (fun t p => t.insert p.id p) q.inFlight }

/-- Brings capacity online: its units become idle and the links to it are dropped. -/
def online (q : Queue) (id : PlannedId) : Except QueueError Queue :=
  match q.inFlight.find? id with
  | none => .error (.unknownCapacity id)
  | some p => .ok {
      items := q.items.mapValues fun _ e => if e.link = some id then { e with link := none } else e
      inFlight := q.inFlight.erase id
      available := q.available.insert p.resource (q.availableOf p.resource + p.units) }

/-- Links an item to planned capacity, unless it is linked to other capacity in flight. -/
def track (q : Queue) (link : Link) : Except TrackError Queue :=
  match q.items.find? link.item with
  | none => .error (.unknownItem link.item)
  | some e =>
    match q.live e.link with
    | some existing =>
      if existing ≠ link.planned then .error (.alreadyLinked link.item existing)
      else .ok { q with items := q.items.insert link.item { e with link := some link.planned } }
    | none => .ok { q with items := q.items.insert link.item { e with link := some link.planned } }

end Queue

end Muster
