import Muster.Review.Chain

/-!
# A review

The review of a class begins by taking the mark off the class and a snapshot of the queue. It runs
the chain, puts what was planned in flight and reports what is left uncovered. Between beginning and
end it may wait for providers any number of times.
-/

namespace Muster

/-- The result of a review. -/
structure Outcome where
  review : ReviewId
  resource : ResourceClass
  strategiesRun : Count
  strategiesFailed : Count
  unitsRequested : Count
  /-- Demand that the chain left uncovered. -/
  unsatisfied : Count
  completedBy : Option String
deriving DecidableEq, Inhabited

/-- The event that reports an outcome. -/
def Outcome.event (o : Outcome) : Event :=
  .reviewCompleted o.review o.resource.toLabel o.strategiesRun o.unitsRequested o.unsatisfied
    o.completedBy

/-- A review after its beginning. -/
inductive Cycle (L : Type) where
  /-- It waits for the answer to a request. -/
  | waiting (state : ReviewState) (cursor : Cursor L)
  | finished (outcome : Outcome)

namespace Cycle

variable {L : Type} [Limiter L]

/-- Ends a review whose chain is finished. -/
def conclude (w : Wiring) (r : ResourceClass) (s : Site L) (st : ReviewState) (t : Tally) :
    Site L × Cycle L :=
  let outcome : Outcome := ⟨st.review, r, t.run, t.failed, st.unitsRequested, st.unsatisfied r,
    t.completedBy⟩
  let s := { s with queue := s.queue.recordPending st.planned }
  (s.emit w outcome.event, .finished outcome)

/-- Ends a review unless its chain waits. -/
def settle (w : Wiring) (r : ResourceClass) : ChainProgress L → Site L × Cycle L
  | .finished s st t => conclude w r s st t
  | .waiting s st cursor => (s, .waiting st cursor)

/-- Begins the review of a class and runs it as far as it goes without waiting. -/
def begin (w : Wiring) (b : Behaviour) (c : Chain L) (r : ResourceClass) (s : Site L) :
    Site L × Cycle L :=
  let st := ReviewState.capture (Id.fresh s.reviews) s.queue [r]
  let s := { s with line := s.line.begin r, reviews := s.reviews + 1 }
  settle w r (c.run w b {} s st)

/-- Goes on with a review after the answer to a request. -/
def resume (w : Wiring) (b : Behaviour) (r : ResourceClass) (st : ReviewState) (cursor : Cursor L)
    (answer : Answer) (s : Site L) : Site L × Cycle L :=
  settle w r (cursor.resume w b answer s st)

end Cycle

end Muster
