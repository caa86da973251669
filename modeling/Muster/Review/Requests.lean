import Muster.Capacity.Pending
import Muster.Event

/-!
# Requests for reviews

Requests wait in a line of limited length for the worker that reviews. A class whose review was
asked for and has not begun is marked, and a second request for it is merged with the first. A
request that finds the line full or closed is dropped and leaves no mark.
-/

namespace Muster

/-- A request that waits in the line. -/
structure ReviewRequest where
  resource : ResourceClass
  source : ReviewSource
deriving DecidableEq, Inhabited

/-- What became of a request. -/
inductive RequestOutcome where
  /-- It waits in the line. -/
  | queued
  /-- The class was marked already. -/
  | coalesced
  /-- Work that becomes ready does not ask for reviews here. -/
  | disabled
  /-- The line was full or nobody receives from it. -/
  | dropped
deriving DecidableEq, Repr, Inhabited

/-- The outcome as messages show it. -/
def RequestOutcome.display : RequestOutcome → String
  | queued => "queued"
  | coalesced => "coalesced"
  | disabled => "disabled"
  | dropped => "dropped"

/-- The line of requests and the marked classes. -/
structure RequestLine where
  waiting : List ReviewRequest := []
  capacity : Nat
  /-- Nobody receives from the line any more. -/
  closed : Bool := false
  pending : PendingSet ResourceClass := .empty

namespace RequestLine

/-- The longest line there can be. -/
def longest : Nat := 0x1FFFFFFFFFFFFFFF

/-- An empty line for up to `capacity` requests, and for one at least. -/
def ofCapacity (capacity : Nat) : RequestLine := { capacity := max capacity 1 }

/-- An empty line, if a line of this length can be made. -/
def ofCapacity? (capacity : Nat) : Option RequestLine :=
  if max capacity 1 ≤ longest then some (ofCapacity capacity) else none

/-- Whether a review of the class was asked for and has not begun. -/
def isPending (l : RequestLine) (resource : ResourceClass) : Bool := l.pending.contains resource

/-- Asks for a review of a class, and gives the event that reports it. -/
def request (l : RequestLine) (fastPath : Bool) (resource : ResourceClass) (source : ReviewSource)
    (item : Option WorkItemId) : RequestOutcome × Option Event × RequestLine :=
  if source = .fastPath ∧ fastPath = false then (.disabled, none, l)
  else if l.isPending resource then
    (.coalesced, some (.reviewCoalesced resource.toLabel), l)
  else if l.closed ∨ l.capacity ≤ l.waiting.length then
    -- The mark is set before the line is tried and taken back here.
    (.dropped, none, { l with pending := (l.pending.mark resource).clear resource })
  else
    (.queued, some (.reviewRequested resource.toLabel source item), { l with
      waiting := l.waiting ++ [⟨resource, source⟩]
      pending := l.pending.mark resource })

/-- Takes the first request off the line. -/
def receive (l : RequestLine) : Option (ReviewRequest × RequestLine) :=
  match l.waiting with
  | [] => none
  | r :: rest => some (r, { l with waiting := rest })

/-- A review of the class begins: the next request is a new one. -/
def begin (l : RequestLine) (resource : ResourceClass) : RequestLine :=
  { l with pending := l.pending.clear resource }

/-- The receiver goes away, with all requests that wait for it. -/
def close (l : RequestLine) : RequestLine := { l with waiting := [], closed := true }

end RequestLine

end Muster
