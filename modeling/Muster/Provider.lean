import Muster.Model

/-!
# Providers and filters

A provider creates capacity for the classes it serves. A review asks it whether it has headroom and
requests units from it. Filters leave providers out. Providers are kept in the order of their
registration, which is the order in which they are tried.
-/

namespace Muster

/-- Why a provider refused. -/
inductive ProviderError where
  /-- It could not say whether it has headroom. -/
  | query (reason : String)
  /-- It did not accept a request. -/
  | provision (reason : String)
deriving DecidableEq

def ProviderError.message : ProviderError → String
  | query reason => "provider query failed: " ++ reason
  | provision reason => "provisioning failed: " ++ reason

/-- What is fixed about a provider. -/
structure Provider where
  id : ProviderId
  name : String
  kind : String
  serves : ResourceClass → Bool

/-- Providers in the order of registration. -/
abbrev Registry := List Provider

/-- The first provider with an identifier. -/
def Registry.get? (r : Registry) (id : ProviderId) : Option Provider := r.find? (·.id == id)

/-- Which providers may be used for a class. -/
abbrev Filter := Provider → ResourceClass → Bool

namespace Filter

/-- Every provider. -/
def all : Filter := fun _ _ => true

/-- The providers of one kind. -/
def ofKind (kind : String) : Filter := fun p _ => p.kind == kind

/-- Every provider, for one class only. -/
def ofClass (resource : ResourceClass) : Filter := fun _ r => r == resource

/-- The providers whose names are not listed. -/
def except (names : List String) : Filter := fun p _ => !names.contains p.name

end Filter

/-- A request for units of one class. -/
structure Request where
  provider : Provider
  resource : ResourceClass
  units : Count

/-- A provider's answer to a request: what it planned, or why it refused. -/
abbrev Answer := Except ProviderError (List PlannedCapacity)

/-- What a provider was asked. -/
inductive Question where
  /-- Is there headroom, with so many units planned already? The answer is part of the record. -/
  | headroom (planned : Count) (answer : Except ProviderError Bool)
  /-- A request for units. -/
  | provision (units : Count)

/-- A call of a provider, and the review that made it, if one did. -/
structure Call where
  review : Option ReviewId
  provider : ProviderId
  resource : ResourceClass
  question : Question

/-- How providers behave. Both answers may depend on all earlier calls. A provider that answers a
request at once does so with `respond`; where that is `none`, the review waits for the answer. What
`respond` returns may also depend on how many capacities were created before, so that their
identifiers can be new. -/
structure Behaviour where
  headroom : List Call → Provider → ResourceClass → Count → Except ProviderError Bool
  respond : List Call → Nat → Request → Option Answer

end Muster
