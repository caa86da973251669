import Muster.Model

/-!
# Provisioning events

What reviews report: which were asked for, what they requested from providers, what failed and how
they ended.
-/

namespace Muster

/-- What asked for a review. -/
inductive ReviewSource where
  /-- A work item became ready. -/
  | fastPath
  /-- The timer of the periodic review. -/
  | periodic
deriving DecidableEq, Repr, Inhabited

def ReviewSource.display : ReviewSource → String
  | fastPath => "fast_path"
  | periodic => "periodic"

/-- Something that happened to a review. The label is absent for the class without one. -/
inductive Event where
  | reviewRequested (label : Option String) (source : ReviewSource) (workItem : Option WorkItemId)
  | reviewCoalesced (label : Option String)
  | reviewCompleted (review : ReviewId) (label : Option String) (strategiesRun : Count)
      (unitsRequested : Count) (unsatisfiedDemand : Count) (completedBy : Option String)
  | provisionRequested (review : ReviewId) (provider : ProviderId) (label : Option String)
      (units : Count) (planned : List PlannedId)
  | provisionFailed (review : ReviewId) (provider : ProviderId) (label : Option String)
      (reason : String)
  | strategyFailed (review : ReviewId) (strategy : String) (reason : String)
deriving DecidableEq, Inhabited

namespace Event

/-- The dotted name of the kind of event. -/
def typeName : Event → String
  | reviewRequested .. => "review.requested"
  | reviewCoalesced .. => "review.coalesced"
  | reviewCompleted .. => "review.completed"
  | provisionRequested .. => "provision.requested"
  | provisionFailed .. => "provision.failed"
  | strategyFailed .. => "strategy.failed"

/-- The review that an event belongs to; asking for a review comes before there is one. -/
def review? : Event → Option ReviewId
  | reviewRequested .. | reviewCoalesced .. => none
  | reviewCompleted review .. | provisionRequested review .. | provisionFailed review ..
  | strategyFailed review .. => some review

/-- The class that an event is about, if it names one. -/
def class? : Event → Option ResourceClass
  | reviewRequested label .. | reviewCoalesced label | reviewCompleted _ label ..
  | provisionRequested _ _ label .. | provisionFailed _ _ label _ => some (.ofLabel label)
  | strategyFailed .. => none

end Event

/-- An event with the time at which it happened. -/
structure Envelope where
  occurredAt : Instant
  typeName : String
  review : Option ReviewId
  payload : Event
deriving DecidableEq, Inhabited

/-- The envelope of an event that happened at `t`. -/
def Envelope.at (payload : Event) (t : Instant) : Envelope :=
  ⟨t, payload.typeName, payload.review?, payload⟩

end Muster
