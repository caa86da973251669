import Muster.Review.Chain

/-!
# Simulated providers and scripted strategies

Two kinds of providers stand in for real ones. A plain provider accepts every request after a while
and creates one capacity for each unit. A scripted provider answers at once, with capacities of
given sizes or with pieces of a part of what was asked. Either can be made to fail.

A scripted strategy plans fixed capacity without asking any provider, whatever the demand is, and
ends as it is told to. Something else may happen to the site before it plans.
-/

namespace Muster

/-! ## Providers -/

/-- What a plain provider does not do. -/
inductive Fault where
  | none
  /-- It cannot say whether it has headroom. -/
  | queries
  /-- It accepts no request. -/
  | requests
deriving DecidableEq, Repr

/-- A provider that answers at once and as told. -/
structure Script where
  /-- Why it cannot say whether it has headroom. -/
  queryError : Option String := none
  /-- It has headroom as long as fewer units are planned with it. -/
  maxPlanned : Option Count := none
  /-- Why it accepts no request. -/
  provisionError : Option String := none
  /-- The sizes of the capacities it creates, whatever was asked. -/
  sizes : Option (List Count) := none
  /-- The most units it creates for one request. -/
  most : Option Count := none
  /-- The size of the pieces it creates; the last may be smaller. -/
  piece : Count := 1

/-- How a simulated provider behaves. -/
inductive Conduct where
  | plain (fault : Fault) (headroom : Bool)
  | scripted (script : Script)

/-- A provider and its behaviour. -/
structure SimulatedProvider where
  provider : Provider
  conduct : Conduct

/-- `units` in pieces of size `piece`, of which the last may be smaller. -/
def Script.pieces (piece units : Nat) : List Count :=
  if _h : units = 0 then []
  else if piece = 0 ∨ units ≤ piece then [UInt32.ofNat units]
  else UInt32.ofNat piece :: pieces piece (units - piece)
termination_by units
decreasing_by omega

/-- The sizes of the capacities that are created for a request. -/
def Script.sizesFor (s : Script) (units : Count) : List Count :=
  match s.sizes with
  | some sizes => sizes
  | none => pieces s.piece.toNat (match s.most with
    | some most => min units most
    | none => units).toNat

/-- Capacities of the given sizes, with new identifiers. -/
def planned (created : Nat) (p : Provider) (r : ResourceClass) (sizes : List Count) :
    List PlannedCapacity :=
  sizes.mapIdx fun i units => ⟨Id.fresh (created + i), p.id, r, units⟩

namespace Conduct

/-- The message of a plain provider that fails. -/
def faultMessage (p : Provider) (what : String) : String :=
  "[MOCK] " ++ p.name ++ " configured to fail" ++ what

/-- The answer to a question about headroom. -/
def headroom (c : Conduct) (p : Provider) (r : ResourceClass) (current : Count) :
    Except ProviderError Bool :=
  match c with
  | plain .queries _ => .error (.query (faultMessage p " queries"))
  | plain _ headroom => .ok (p.serves r && headroom)
  | scripted s =>
    match s.queryError with
    | some reason => .error (.query reason)
    | none => .ok (match s.maxPlanned with
      | some most => decide (current < most)
      | none => true)

/-- The answer that is given at once to a request, if it is. -/
def respond (c : Conduct) (created : Nat) (request : Request) : Option Answer :=
  match c with
  | plain .requests _ => some (.error (.provision (faultMessage request.provider "")))
  | plain _ _ => none
  | scripted s =>
    match s.provisionError with
    | some reason => some (.error (.provision reason))
    | none => some (.ok (planned created request.provider request.resource
        (s.sizesFor request.units)))

/-- The answer of a plain provider, one capacity for each unit. -/
def deliver (created : Nat) (request : Request) : Answer :=
  .ok (planned created request.provider request.resource (List.replicate request.units.toNat 1))

/-- The provider accepts the requests that reach it. -/
def accepts : Conduct → Bool
  | plain .requests _ => false
  | _ => true

end Conduct

namespace SimulatedProvider

/-- The behaviour of a provider that is listed, by its identifier. -/
def find? (providers : List SimulatedProvider) (p : Provider) : Option SimulatedProvider :=
  providers.find? (·.provider.id == p.id)

/-- How simulated providers behave. A provider that is not listed has no headroom. -/
def behaviour (providers : List SimulatedProvider) : Behaviour where
  headroom _ p r current :=
    match find? providers p with
    | some s => s.conduct.headroom p r current
    | none => .ok false
  respond _ created request := (find? providers request.provider).bind fun s =>
    s.conduct.respond created request

/-- The requests for units that a provider got, oldest first. -/
def requests (calls : List Call) (id : ProviderId) : List (ResourceClass × Count) :=
  calls.filterMap fun c =>
    match c.question with
    | .provision units => if c.provider = id then some (c.resource, units) else none
    | .headroom .. => none

/-- The requests that a provider accepted, oldest first. -/
def accepted (s : SimulatedProvider) (calls : List Call) : List (ResourceClass × Count) :=
  if s.conduct.accepts then requests calls s.provider.id else []

/-- The units that a provider accepted to create. -/
def unitsAccepted (s : SimulatedProvider) (calls : List Call) : Count :=
  Count.total ((s.accepted calls).map Prod.snd)

end SimulatedProvider

/-! ## Strategies -/

/-- Capacity that a scripted strategy plans: one for each size. -/
structure Share where
  provider : Provider
  resource : ResourceClass
  sizes : List Count

variable {L : Type}

/-- Plans a share. The links that come of it are not reported. -/
def Share.plan (share : Share) (s : Site L) (st : ReviewState) : Site L × ReviewState :=
  let new := planned s.created.length share.provider share.resource share.sizes
  ({ s with created := s.created ++ new },
    (st.recordPlanned share.resource share.provider.id new).2)

/-- A strategy that lets `before` happen, plans its shares and ends with `result`. -/
def Strategy.scripted (name : String) (ordinal : Int) (before : Behaviour → Site L → Site L)
    (shares : List Share) (result : Except StrategyError Decision) : Strategy L :=
  .custom name ordinal fun b s st =>
    let (s, st) := shares.foldl (fun (s, st) share => share.plan s st) (before b s, st)
    (result, s, st)

end Muster
