import Muster.Config
import Muster.Host.Clock

/-!
# The configured host

A configuration declares the providers, their ceilings, who may be asked and how often all classes
are reviewed. The host made from it has plain providers, one planning engine and the fallback.
-/

namespace Muster

/-- The provider declared at a place of the list. -/
def SimulatedProvider.ofSpec (place : Nat) (s : ProviderSpec) : SimulatedProvider :=
  ⟨⟨Id.fresh place, s.name, s.kind, fun r => s.classes.contains r⟩, .plain .none true⟩

/-- The declared ceilings; a provider without one may hold as much as can be counted. -/
def StaticLimiter.ofSpecs (specs : List ProviderSpec) : StaticLimiter :=
  specs.zipIdx.foldl (fun l (s, place) =>
    s.classes.foldl (fun l r => l.withCeiling (Id.fresh place) r (s.limit.getD Count.largest)) l)
    .empty

namespace Config

/-- Who may be asked for capacity. -/
def filter (c : Config) : Filter :=
  match c.strategyKind with
  | some kind => .ofKind kind
  | none => .all

/-- The host at rest, unless its line of requests would be too long. -/
def host? (c : Config) : Option Host := do
  let line ← RequestLine.ofCapacity? c.reviewQueueCapacity
  let providers := c.providers.zipIdx.map fun (s, place) => SimulatedProvider.ofSpec place s
  let registry := providers.map (·.provider)
  let limiter : HostLimiter := ⟨.ofSpecs c.providers, .enforcing⟩
  return {
    wiring := { fastPath := c.fastProvisioning,
                trigger := some ⟨c.fastProvisioning, registry, c.filter⟩ }
    chain := .ofList [.engine { providers := registry, filter := c.filter }, .fallback]
    providers
    system := { site := { limiter, line } } }

/-- The loops that the host runs: the worker, and the load generator if it is turned on. -/
def loops (c : Config) : List BackgroundLoop :=
  .worker { interval := c.reviewIntervalSeconds * 1000, ownsLine := true } ::
    match c.arrivalMilliseconds with
    | some every => [.generator { every, classes := c.classes }]
    | none => []

/-- The host with its loops, at a time in milliseconds since 1970. -/
def timedHost? (c : Config) (origin : Int) : Option TimedHost :=
  c.host?.map fun host => { host, origin, loops := c.loops }

end Config

end Muster
