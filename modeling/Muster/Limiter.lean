import Muster.Id.Text
import Muster.Model
import Muster.Table

/-!
# Limiters

A limiter says how many units a provider may still provision for a class. Accepted capacity is
registered with it and released once it is retired. The static limiter has a fixed ceiling per slot
and counts what is registered; a slot without a ceiling is an error.

**Main statements.** `find?_register` and `find?_release` say which registrations are live.
-/

namespace Muster

/-- Why a limiter did not answer. -/
inductive LimitError where
  /-- There is no ceiling for this provider and the class in question. -/
  | unknownProvider (provider : ProviderId)
  /-- The limits could not be read or written. -/
  | unavailable (reason : String)
deriving DecidableEq

def LimitError.message : LimitError → String
  | unknownProvider provider => "no limit configured for provider " ++ provider.toText
  | unavailable reason => "limit lookup failed: " ++ reason

/-- What the review of a class needs of a limiter. A registration that fails changes nothing. -/
class Limiter (L : Type) where
  /-- Units that the provider may still provision for the class. -/
  remaining : L → ProviderId → ResourceClass → Except LimitError Count
  /-- Accounts for accepted capacity. -/
  register : L → PlannedCapacity → Except LimitError L
  /-- Gives retired capacity back. -/
  release : L → PlannedId → L

/-- Fixed ceilings, and the capacity that is registered against them. -/
structure StaticLimiter where
  ceilings : Table Slot Count := ∅
  usage : Table PlannedId PlannedCapacity := ∅

namespace StaticLimiter

/-- No ceilings, nothing registered. -/
def empty : StaticLimiter := {}

/-- Sets the ceiling of a slot. -/
def withCeiling (l : StaticLimiter) (provider : ProviderId) (resource : ResourceClass)
    (units : Count) : StaticLimiter :=
  { l with ceilings := l.ceilings.insert ⟨provider, resource⟩ units }

/-- The registrations against a slot. -/
def registered (l : StaticLimiter) (provider : ProviderId) (resource : ResourceClass) :
    List PlannedCapacity :=
  l.usage.values.filter fun p => p.provider == provider && p.resource == resource

/-- Units registered against a slot. -/
def inUse (l : StaticLimiter) (provider : ProviderId) (resource : ResourceClass) : Count :=
  Count.total ((l.registered provider resource).map (·.units))

/-- What the ceiling leaves, zero if more is in use. -/
def remaining (l : StaticLimiter) (provider : ProviderId) (resource : ResourceClass) :
    Except LimitError Count :=
  match l.ceilings.find? ⟨provider, resource⟩ with
  | none => .error (.unknownProvider provider)
  | some ceiling => .ok (ceiling.satSub (l.inUse provider resource))

/-- Registers capacity; a second registration of an identifier replaces the first. -/
def register (l : StaticLimiter) (p : PlannedCapacity) : StaticLimiter :=
  { l with usage := l.usage.insert p.id p }

/-- Forgets a registration, if there is one. -/
def release (l : StaticLimiter) (id : PlannedId) : StaticLimiter :=
  { l with usage := l.usage.erase id }

@[simp] theorem find?_register (l : StaticLimiter) (p : PlannedCapacity) (id : PlannedId) :
    (l.register p).usage.find? id = if id = p.id then some p else l.usage.find? id := by
  simp [register]

@[simp] theorem find?_release (l : StaticLimiter) (gone id : PlannedId) :
    (l.release gone).usage.find? id = if id = gone then none else l.usage.find? id := by
  simp [release]

instance : Limiter StaticLimiter where
  remaining := remaining
  register l p := .ok (l.register p)
  release := release

end StaticLimiter

/-- The limiter that never limits. -/
structure Unlimited where
deriving DecidableEq, Inhabited

instance : Limiter Unlimited where
  remaining _ _ _ := .ok Count.largest
  register l _ := .ok l
  release l _ := l

/-- How a host limits: by ceilings or not at all, and with which faults. -/
inductive LimiterMode where
  | enforcing
  | unlimited
  /-- Neither look-ups nor registrations get through. -/
  | unreachable (reason : String)
  /-- Look-ups get through and registrations do not. -/
  | readOnly (reason : String)
deriving DecidableEq

/-- A static limiter behind a mode. -/
structure HostLimiter where
  ceilings : StaticLimiter
  mode : LimiterMode

instance : Limiter HostLimiter where
  remaining l provider resource :=
    match l.mode with
    | .enforcing | .readOnly _ => l.ceilings.remaining provider resource
    | .unlimited => .ok Count.largest
    | .unreachable reason => .error (.unavailable reason)
  register l p :=
    match l.mode with
    | .enforcing => .ok { l with ceilings := l.ceilings.register p }
    | .unlimited => .ok l
    | .unreachable reason | .readOnly reason => .error (.unavailable reason)
  release l id :=
    match l.mode with
    | .unlimited => l
    | _ => { l with ceilings := l.ceilings.release id }

end Muster
