import Muster.Count

/-!
# Demand against capacity

One class has a demand, some idle capacity and some capacity that was asked for and is not yet
online. The shortfall is the demand that neither covers.

**Main statement.** `toNat_shortfall`: the shortfall is demand less capacity, truncated at zero,
also where the capacity itself does not fit a count.
-/

namespace Muster

/-- Demand and capacity of one class. -/
structure CapacityCounts where
  /-- Work items that wait for capacity. -/
  demand : Count
  /-- Idle units. -/
  available : Count
  /-- Units that were accepted and are not online yet. -/
  inFlight : Count
deriving DecidableEq, Repr, Inhabited

namespace CapacityCounts

/-- The counts of a class nobody has asked for. -/
def zero : CapacityCounts := ⟨0, 0, 0⟩

/-- Units that can take work, now or later. -/
def covered (c : CapacityCounts) : Count := c.available.satAdd c.inFlight

/-- Demand that is not covered. -/
def shortfall (c : CapacityCounts) : Count := c.demand.satSub c.covered

/-- Nothing more is needed. -/
def satisfied (c : CapacityCounts) : Bool := c.shortfall == 0

/-- Counts newly accepted units as in flight. -/
def recordPlanned (c : CapacityCounts) (units : Count) : CapacityCounts :=
  { c with inFlight := c.inFlight.satAdd units }

theorem toNat_covered (c : CapacityCounts) :
    c.covered.toNat = min (c.available.toNat + c.inFlight.toNat) 4294967295 :=
  Count.toNat_satAdd _ _

theorem toNat_shortfall (c : CapacityCounts) :
    c.shortfall.toNat = c.demand.toNat - (c.available.toNat + c.inFlight.toNat) := by
  have := Count.toNat_lt c.demand
  rw [shortfall, Count.toNat_satSub, toNat_covered]
  omega

/-- What is planned is no longer missing, also where the units in flight stop at the largest count. -/
theorem toNat_shortfall_recordPlanned (c : CapacityCounts) (units : Count) :
    (c.recordPlanned units).shortfall.toNat = c.shortfall.toNat - units.toNat := by
  have demand := Count.toNat_lt c.demand
  have flying : (c.recordPlanned units).inFlight.toNat = _ := Count.toNat_satAdd _ _
  have before := toNat_shortfall c
  have after := toNat_shortfall (c.recordPlanned units)
  simp only [flying] at after
  have same : (c.recordPlanned units).demand = c.demand := rfl
  have same' : (c.recordPlanned units).available = c.available := rfl
  rw [same, same'] at after
  omega

end CapacityCounts

/-- Units to ask one provider for: the shortfall, capped by the provider's limit. -/
def grant (shortfall remaining : Count) : Count := min shortfall remaining

theorem toNat_grant (shortfall remaining : Count) :
    (grant shortfall remaining).toNat = min shortfall.toNat remaining.toNat :=
  Count.toNat_min _ _

end Muster
