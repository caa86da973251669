import Muster.Review.Site
import Muster.Review.State

/-!
# The planning engine

The engine compares demand with capacity for each class under review and asks providers for the
difference. Providers are visited in the order of registration, and the visit ends when the class is
covered: first fit, without balancing. A provider is asked for the shortfall, capped by what its
limit leaves. A provider that fails the check for headroom is left out, and a limiter that fails
leaves nothing.

A request that is not answered at once stops the engine; `Pause` holds what is left to do, and the
engine goes on from there when the answer comes.
-/

namespace Muster

/-- A planning strategy. -/
structure Engine where
  name : String := "no-delay"
  /-- The place in the chain. -/
  ordinal : Int := 100
  /-- An engine that is not enabled plans nothing. -/
  enabled : Bool := true
  providers : Registry
  filter : Filter := .all

/-- An engine that waits for the answer to a request. -/
structure Pause where
  request : Request
  /-- Providers still to be visited for the class of the request. -/
  providersLeft : Registry
  /-- Classes still to be planned after it. -/
  classesLeft : List ResourceClass

/-- How far an engine got. -/
inductive Progress (L : Type) where
  /-- There is nothing left to do. -/
  | settled (site : Site L) (state : ReviewState)
  /-- A provider has not answered yet. -/
  | waiting (site : Site L) (state : ReviewState) (pause : Pause)

namespace Engine

variable {L : Type} [Limiter L]

/-- Registers accepted capacity, as far as the limiter lets it. -/
def register (limiter : L) (p : PlannedCapacity) : L :=
  match Limiter.register limiter p with
  | .ok limiter => limiter
  | .error _ => limiter

/-- What the limiter leaves to a provider; nothing if it fails. -/
def readLimit (s : Site L) (slot : Slot) : Count :=
  match Limiter.remaining s.limiter slot.provider slot.resource with
  | .ok units => units
  | .error _ => 0

/-- Whether a provider may be asked for capacity. -/
def isEligible (e : Engine) (b : Behaviour) (r : ResourceClass) (p : Provider) (s : Site L)
    (st : ReviewState) : Bool × Site L :=
  if p.serves r && e.filter p r then
    match s.askHeadroom b (some st.review) p r (st.plannedFor p.id) with
    | (.ok true, s) => (true, s)
    | (_, s) => (false, s)
  else (false, s)

/-- How many units a provider is to be asked for; zero stands for no request. -/
def consult (e : Engine) (b : Behaviour) (r : ResourceClass) (p : Provider) (s : Site L)
    (st : ReviewState) : Count × Site L × ReviewState :=
  match e.isEligible b r p s st with
  | (false, s) => (0, s, st)
  | (true, s) =>
    let slot : Slot := ⟨p.id, r⟩
    let (remaining, next) := st.remainingLimit slot (readLimit s slot)
    (grant (st.unsatisfied r) remaining, s, next)

/-- Takes in the answer to a request. Capacity of no units at all is as good as none. -/
def accept (w : Wiring) (request : Request) (answer : Answer) (s : Site L) (st : ReviewState) :
    Site L × ReviewState :=
  let r := request.resource
  let p := request.provider.id
  match answer with
  | .error e => (s.emit w (.provisionFailed st.review p r.toLabel e.message), st)
  | .ok planned =>
    let units := PlannedCapacity.totalUnits planned
    let s := { s with created := s.created ++ planned }
    if units = 0 then (s, st)
    else
      let s := { s with limiter := planned.foldl register s.limiter }
      let (links, next) := st.recordPlanned r p planned
      let s := links.foldl (Site.track w) s
      (s.emit w (.provisionRequested st.review p r.toLabel units (planned.map (·.id))), next)

/-- Visits providers for a class until it is covered; `later` are the classes after it. -/
def visit (e : Engine) (w : Wiring) (b : Behaviour) (r : ResourceClass)
    (later : List ResourceClass) : Registry → Site L → ReviewState → Progress L
  | [], s, st => .settled s st
  | p :: rest, s, st =>
    if st.unsatisfied r = 0 then .settled s st
    else
      let (units, s, st) := e.consult b r p s st
      if units = 0 then visit e w b r later rest s st
      else
        let request : Request := ⟨p, r, units⟩
        match s.askCapacity b (some st.review) request with
        | (none, s) => .waiting s st ⟨request, rest, later⟩
        | (some answer, s) =>
          let (s, st) := accept w request answer s st
          visit e w b r later rest s st

/-- Plans classes one after the other. -/
def visitClasses (e : Engine) (w : Wiring) (b : Behaviour) :
    List ResourceClass → Site L → ReviewState → Progress L
  | [], s, st => .settled s st
  | r :: later, s, st =>
    match e.visit w b r later e.providers s st with
    | .settled s st => visitClasses e w b later s st
    | .waiting s st pause => .waiting s st pause

/-- Plans every class under review. -/
def start (e : Engine) (w : Wiring) (b : Behaviour) (s : Site L) (st : ReviewState) : Progress L :=
  if e.enabled then e.visitClasses w b st.classes.keys s st else .settled s st

/-- Goes on after the answer to a request. -/
def resume (e : Engine) (w : Wiring) (b : Behaviour) (pause : Pause) (answer : Answer) (s : Site L)
    (st : ReviewState) : Progress L :=
  let (s, st) := accept w pause.request answer s st
  match e.visit w b pause.request.resource pause.classesLeft pause.providersLeft s st with
  | .settled s st => e.visitClasses w b pause.classesLeft s st
  | .waiting s st pause => .waiting s st pause

end Engine

end Muster
