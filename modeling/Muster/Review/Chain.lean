import Muster.Review.Engine

/-!
# The chain of strategies

Strategies run in the order of their ordinals, those of equal ordinals in the order of registration,
until one completes the chain. A strategy that fails is reported, and the chain goes on.
-/

namespace Muster

/-- Why a strategy failed. -/
inductive StrategyError where
  | failed (reason : String)
  | internal (reason : String)
deriving DecidableEq

def StrategyError.message : StrategyError → String
  | failed reason => "strategy failed: " ++ reason
  | internal reason => "internal error: " ++ reason

/-- A link of the chain. -/
inductive Strategy (L : Type) where
  | engine (e : Engine)
  /-- Completes the chain; what is uncovered waits for the next review. -/
  | fallback
  /-- A strategy of the host, which acts in one step. -/
  | custom (name : String) (ordinal : Int)
      (apply : Behaviour → Site L → ReviewState →
        Except StrategyError Decision × Site L × ReviewState)

namespace Strategy

variable {L : Type}

def name : Strategy L → String
  | engine e => e.name
  | fallback => "fallback"
  | custom name .. => name

/-- The place in the chain; the fallback takes the last one. -/
def ordinal : Strategy L → Int
  | engine e => e.ordinal
  | fallback => 2147483647
  | custom _ ordinal _ => ordinal

end Strategy

/-- Strategies in the order in which they run. -/
abbrev Chain (L : Type) := List (Strategy L)

namespace Chain

variable {L : Type}

/-- Adds a strategy after those whose ordinals are not greater. -/
def register (c : Chain L) (added : Strategy L) : Chain L :=
  match c with
  | [] => [added]
  | head :: rest =>
    if head.ordinal ≤ added.ordinal then head :: register rest added else added :: head :: rest

/-- The chain of strategies that are registered one after the other. -/
def ofList (strategies : List (Strategy L)) : Chain L := strategies.foldl register []

end Chain

/-- What a run of the chain amounts to. -/
structure Tally where
  /-- Strategies that ran, those that failed included. -/
  run : Count := 0
  failed : Count := 0
  completedBy : Option String := none
deriving DecidableEq, Repr, Inhabited

/-- A chain that waits for the answer to a request of one of its engines. -/
structure Cursor (L : Type) where
  engine : Engine
  pause : Pause
  /-- The strategies after the engine. -/
  rest : Chain L
  tally : Tally

/-- How far a chain got. -/
inductive ChainProgress (L : Type) where
  | finished (site : Site L) (state : ReviewState) (tally : Tally)
  | waiting (site : Site L) (state : ReviewState) (cursor : Cursor L)

namespace Chain

variable {L : Type} [Limiter L]

/-- Runs the strategies of a chain. -/
def run (w : Wiring) (b : Behaviour) :
    Chain L → Tally → Site L → ReviewState → ChainProgress L
  | [], t, s, st => .finished s st t
  | strategy :: rest, t, s, st =>
    let t := { t with run := t.run + 1 }
    match strategy with
    | .fallback => .finished s st { t with completedBy := some strategy.name }
    | .engine e =>
      match e.start w b s st with
      | .settled s st => run w b rest t s st
      | .waiting s st pause => .waiting s st ⟨e, pause, rest, t⟩
    | .custom name _ apply =>
      match apply b s st with
      | (.ok .proceed, s, st) => run w b rest t s st
      | (.ok .complete, s, st) => .finished s st { t with completedBy := some name }
      | (.error e, s, st) =>
        run w b rest { t with failed := t.failed + 1 }
          (s.emit w (.strategyFailed st.review name e.message)) st

end Chain

/-- Goes on with the chain after the answer to a request. -/
def Cursor.resume {L : Type} [Limiter L] (w : Wiring) (b : Behaviour) (c : Cursor L)
    (answer : Answer) (s : Site L) (st : ReviewState) : ChainProgress L :=
  match c.engine.resume w b c.pause answer s st with
  | .settled s st => Chain.run w b c.rest c.tally s st
  | .waiting s st pause => .waiting s st { c with pause }

end Muster
