import Muster.Config.ProviderSpec

/-!
# Configuration

The settings of the host, read from variables. Every variable is optional. They are read in a fixed
order and the first one that does not hold a value of its kind is reported.
-/

namespace Muster

/-- The settings of the host. -/
structure Config where
  /-- Work that becomes ready asks for a review at once. -/
  fastProvisioning : Bool
  reviewIntervalSeconds : Nat
  reviewQueueCapacity : Nat
  logLevel : String
  /-- Only providers of this kind are asked. -/
  strategyKind : Option String
  providers : List ProviderSpec
  /-- Milliseconds between the work items of the load generator, if it runs. -/
  arrivalMilliseconds : Option Nat
deriving DecidableEq, Repr

namespace Config

/-- The provider of a host that declares none. -/
def defaultProvider : ProviderSpec := ⟨"local", "kubernetes", [.unlabeled], some 10⟩

/-- Whether a switch is on: `1`, or the word `true` in letters of either case. -/
def isOn (value : String) : Bool := value == "1" || value.toList.map Char.toLower == "true".toList

/-- A number of 64 bits. -/
def word? (value : String) : Option Nat := Decimal.read UInt64.size value.toList

/-- A positive number from a variable, or a default. -/
def positive (lookUp : String → Option String) (variableName : String) (absent : Nat) :
    Except ConfigError Nat :=
  match lookUp variableName with
  | none => .ok absent
  | some value =>
    match word? value with
    | some n => if 0 < n then .ok n else .error (.invalidValue variableName value)
    | none => .error (.invalidValue variableName value)

/-- The declarations between the commas of a text; blank ones are skipped. -/
def specs (value : String) : List String :=
  ((Split.split ',' value.toList).filter fun piece => !(Blank.trim piece).isEmpty).map String.ofList

/-- The declared providers. -/
def readProviders (lookUp : String → Option String) : Except ConfigError (List ProviderSpec) :=
  match lookUp "NODELAY_PROVIDERS" with
  | none => .ok [defaultProvider]
  | some value => (specs value).mapM ProviderSpec.parse

/-- The interval of the load generator; zero turns it off. -/
def readArrival (lookUp : String → Option String) : Except ConfigError (Option Nat) :=
  match lookUp "NODELAY_SIMULATE_ARRIVAL_MS" with
  | none => .ok none
  | some value =>
    match word? value with
    | some n => .ok (if n = 0 then none else some n)
    | none => .error (.invalidValue "NODELAY_SIMULATE_ARRIVAL_MS" value)

/-- Reads the settings from a source of variables. -/
def ofVariables (lookUp : String → Option String) : Except ConfigError Config := do
  let fast := !((lookUp "NODELAY_DISABLE_FAST_PROVISIONING").any isOn)
  let interval ← positive lookUp "NODELAY_REVIEW_INTERVAL_SECS" 10
  let capacity ← positive lookUp "NODELAY_REVIEW_QUEUE_CAPACITY" 1024
  let logLevel := (lookUp "NODELAY_LOG_LEVEL").getD "info"
  let kind := (lookUp "NODELAY_STRATEGY_KIND").filter fun k => !k.isEmpty
  let providers ← readProviders lookUp
  let arrival ← readArrival lookUp
  return ⟨fast, interval, capacity, logLevel, kind, providers, arrival⟩

/-- The classes that some declared provider serves, in the order in which they are first declared. -/
def classes (c : Config) : List ResourceClass :=
  (c.providers.flatMap (·.classes)).foldl
    (fun seen r => if r ∈ seen then seen else seen ++ [r]) []

end Config

end Muster
