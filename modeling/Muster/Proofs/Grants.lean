import Mathlib.Data.List.Induction
import Muster.Proofs.FirstFit

/-!
# Grants against limits

A shortfall is handed out in steps. Each step looks up what is left of one limit, grants what is
missing as far as that goes, and takes the grant off both. Limits may come up again in later steps,
and the sums of counts stop at the largest one.

A limit is granted on as long as anything is missing, so after its first step either nothing is left
of it or nothing is missing any more, and no later step grants anything on it. That is why the steps
together grant the shortfall or all the limits, whichever is less, however often limits come up.

**Main statements.** `Ledger.grants_exact`: reads, grants and shortfall of any number of steps.
`Visit.Leads.serves`: a visit to a provider that delivers what it is asked for is such a step.
-/

namespace Muster

/-! ## Offers -/

/-- A key that may be granted on, and the limit that is found if it is read. -/
structure Offer (κ : Type) where
  key : κ
  limit : Count
deriving DecidableEq

/-- Reads the limit and puts that on record. -/
def Offer.read {κ : Type} (o : Offer κ) : StateM (List (Offer κ)) Count := do
  modify (· ++ [o])
  return o.limit

namespace Offer

variable {κ : Type} [DecidableEq κ]

/-- The first offer of a key. -/
def first? (offers : List (Offer κ)) (key : κ) : Option (Offer κ) := offers.find? (·.key = key)

/-- The first offers of all keys. -/
def firsts (offers : List (Offer κ)) : List (Offer κ) :=
  (offers.map Offer.key).dedup.filterMap (first? offers)

/-- The sum of the limits that are offered first. -/
def limits (offers : List (Offer κ)) : Nat := Count.exactSum ((firsts offers).map Offer.limit)

variable {offers reads : List (Offer κ)} {key : κ} {o : Offer κ}

theorem first?_concat (offers : List (Offer κ)) (o : Offer κ) (key : κ) :
    first? (offers ++ [o]) key =
      (first? offers key).or (if o.key = key then some o else none) := by
  rw [first?, List.find?_append, List.find?_singleton]
  simp [first?]

theorem first?_concat_new (new : first? offers o.key = none) (key : κ) :
    first? (offers ++ [o]) key = if o.key = key then some o else first? offers key := by
  rw [first?_concat]
  by_cases e : o.key = key
  · simp [← e, new]
  · simp [e]

theorem first?_concat_known {earlier : Offer κ} (known : first? offers o.key = some earlier)
    (key : κ) : first? (offers ++ [o]) key = first? offers key := by
  rw [first?_concat]
  by_cases e : o.key = key
  · simp [← e, known]
  · simp [e]

theorem first?_eq_none_iff : first? offers key = none ↔ key ∉ offers.map Offer.key := by
  simp [first?]

theorem key_of_first? (key : κ) (o : Offer κ) (found : first? offers key = some o) :
    o.key = key := by
  rw [first?] at found
  have own := List.find?_some found
  exact of_decide_eq_true own

theorem mem_firsts : o ∈ firsts offers ↔ first? offers o.key = some o := by
  refine (mem_filterMap_dedup key_of_first?).trans (and_iff_right_of_imp fun found => ?_)
  exact List.mem_map_of_mem (List.mem_of_find?_eq_some found)

theorem firsts_nodup (offers : List (Offer κ)) : (firsts offers).Nodup :=
  nodup_filterMap_dedup key_of_first?

/-- Offers of different keys are all the first ones of their keys. -/
theorem first?_eq_self (once : (offers.map Offer.key).Nodup) (mem : o ∈ offers) :
    first? offers o.key = some o := by
  cases found : first? offers o.key with
  | none => exact absurd (List.mem_map_of_mem mem) (first?_eq_none_iff.1 found)
  | some o' =>
    have listed : o' ∈ offers := List.mem_of_find?_eq_some found
    rw [List.inj_on_of_nodup_map once listed mem (key_of_first? _ _ found)]

/-- The first offers of all keys, as a list without other offers. -/
theorem perm_firsts (once : (reads.map Offer.key).Nodup)
    (first : ∀ key, first? reads key = first? offers key) : reads.Perm (firsts offers) := by
  refine (List.perm_ext_iff_of_nodup once.of_map (firsts_nodup offers)).2 ?_
  intro o
  rw [mem_firsts, ← first]
  exact ⟨first?_eq_self once, List.mem_of_find?_eq_some⟩

end Offer

/-! ## Steps -/

variable {κ : Type} [Ord κ] [Std.TransOrd κ] [Std.LawfulEqOrd κ]

/-- Looks up what is left for a key, and reads the limit only if the key has no entry yet. -/
def Budget.lookUpBy {m : Type → Type} [Monad m] (b : Budget κ) (key : κ) (read : m Count) :
    m (Count × Budget κ) :=
  match b.remaining.find? key with
  | some left => return (left, b)
  | none => do
    let limit ← read
    return (limit, ⟨b.remaining.insert key limit⟩)

/-- The limit is read if `reads` says so, and does not matter otherwise. -/
theorem Budget.lookUpBy_eq {m : Type → Type} [Monad m] [LawfulMonad m] (b : Budget κ) (key : κ)
    (read : m Count) (limit : Count) : b.lookUpBy key read =
      if b.reads key then b.lookUp key <$> read else pure (b.lookUp key limit) := by
  cases found : b.remaining.find? key with
  | none =>
    rw [if_pos (reads_iff.2 found), lookUpBy, found, map_eq_pure_bind]
    simp only [lookUp_of_none found]
  | some left =>
    have known : ¬b.reads key = true := by simp [reads_iff, found]
    rw [if_neg known, lookUpBy, found, lookUp_of_some found]

/-- What was granted, and what that leaves. -/
structure Ledger (κ : Type) [Ord κ] where
  counts : CapacityCounts
  budget : Budget κ := .empty
  /-- The offers whose limits were read. -/
  reads : List (Offer κ) := []
  /-- The key and the units of each step. -/
  grants : List (κ × Count) := []

namespace Ledger

/-- Grants what is missing, as far as the limit of the offer goes. -/
def serve (l : Ledger κ) (o : Offer κ) : Ledger κ :=
  let ((left, budget), reads) := (l.budget.lookUpBy o.key o.read).run l.reads
  let units := grant l.counts.shortfall left
  { counts := l.counts.recordPlanned units
    budget := (budget.consume o.key units).2
    reads
    grants := l.grants ++ [(o.key, units)] }

/-- Serves offers one after the other, with no limit looked up before. -/
def serveAll (c : CapacityCounts) (offers : List (Offer κ)) : Ledger κ :=
  offers.foldl serve { counts := c }

/-- All units granted. -/
def granted (l : Ledger κ) : Nat := Count.exactSum (l.grants.map Prod.snd)

/-- The units granted on one key. -/
def grantedTo [DecidableEq κ] (l : Ledger κ) (key : κ) : Nat :=
  Count.exactSum ((l.grants.filter (·.1 = key)).map Prod.snd)

end Ledger

/-! ## One step -/

namespace Ledger

/-- What is left for the key of an offer. -/
def left (l : Ledger κ) (o : Offer κ) : Count := (l.budget.lookUp o.key o.limit).1

/-- The units that an offer is granted. -/
def units (l : Ledger κ) (o : Offer κ) : Count := grant l.counts.shortfall (l.left o)

theorem toNat_units (l : Ledger κ) (o : Offer κ) :
    (l.units o).toNat = min l.counts.shortfall.toNat (l.left o).toNat :=
  toNat_grant _ _

theorem serve_eq (l : Ledger κ) (o : Offer κ) : l.serve o =
    { counts := l.counts.recordPlanned (l.units o)
      budget := ((l.budget.lookUp o.key o.limit).2.consume o.key (l.units o)).2
      reads := if l.budget.reads o.key then l.reads ++ [o] else l.reads
      grants := l.grants ++ [(o.key, l.units o)] } := by
  unfold serve
  rw [Budget.lookUpBy_eq l.budget o.key o.read o.limit]
  by_cases new : l.budget.reads o.key = true
  · rw [if_pos new, if_pos new]
    rfl
  · rw [if_neg new, if_neg new]
    rfl

variable {l : Ledger κ} {o : Offer κ}

theorem shortfall_serve (l : Ledger κ) (o : Offer κ) : (l.serve o).counts.shortfall.toNat =
    l.counts.shortfall.toNat - (l.units o).toNat := by
  rw [serve_eq]
  exact l.counts.toNat_shortfall_recordPlanned _

theorem granted_serve (l : Ledger κ) (o : Offer κ) :
    (l.serve o).granted = l.granted + (l.units o).toNat := by
  simp [serve_eq, granted, Count.exactSum_append, Count.exactSum]

theorem keys_serve (l : Ledger κ) (o : Offer κ) :
    (l.serve o).grants.map Prod.fst = l.grants.map Prod.fst ++ [o.key] := by
  simp [serve_eq]

theorem reads_serve_of_none (new : l.budget.remaining.find? o.key = none) :
    (l.serve o).reads = l.reads ++ [o] := by
  rw [serve_eq]
  exact if_pos (Budget.reads_iff.2 new)

theorem reads_serve_of_some {left : Count} (known : l.budget.remaining.find? o.key = some left) :
    (l.serve o).reads = l.reads := by
  rw [serve_eq]
  exact if_neg (by simp [Budget.reads_iff, known])

theorem left_of_none (new : l.budget.remaining.find? o.key = none) : l.left o = o.limit := by
  rw [left, Budget.lookUp_of_none new]

theorem left_of_some {left : Count} (known : l.budget.remaining.find? o.key = some left) :
    l.left o = left := by
  rw [Ledger.left, Budget.lookUp_of_some known]

variable [DecidableEq κ]

theorem find?_serve (l : Ledger κ) (o : Offer κ) (key : κ) :
    (l.serve o).budget.remaining.find? key =
      if key = o.key then some ((l.left o).satSub (l.units o))
      else l.budget.remaining.find? key := by
  rw [serve_eq]
  exact l.budget.find?_consume_lookUp o.key o.limit _ key

theorem grantedTo_serve (l : Ledger κ) (o : Offer κ) (key : κ) : (l.serve o).grantedTo key =
    l.grantedTo key + if key = o.key then (l.units o).toNat else 0 := by
  rw [serve_eq, grantedTo, List.filter_append, List.map_append, Count.exactSum_append]
  by_cases e : key = o.key
  · simp [grantedTo, e, Count.exactSum]
  · simp [grantedTo, e, Ne.symm e, Count.exactSum]

end Ledger

/-! ## The invariant -/

namespace Ledger

open Offer (first?)

variable [DecidableEq κ]

/-- The books are right after the offers `done`: limits were read where they came up first, a limit
that was read is either granted or left, and what was missing is either granted or still missing. -/
structure Accounted (c : CapacityCounts) (done : List (Offer κ)) (l : Ledger κ) : Prop where
  once : (l.reads.map Offer.key).Nodup
  first : ∀ key, first? l.reads key = first? done key
  untouched : ∀ key, first? done key = none →
    l.budget.remaining.find? key = none ∧ l.grantedTo key = 0
  spent : ∀ key o, first? done key = some o → ∃ left,
    l.budget.remaining.find? key = some left ∧ l.grantedTo key + left.toNat = o.limit.toNat
  /-- Nothing is left over while something is missing. -/
  spare : ∀ key left, l.budget.remaining.find? key = some left →
    left.toNat = 0 ∨ l.counts.shortfall.toNat = 0
  missing : l.counts.shortfall.toNat + l.granted = c.shortfall.toNat
  total : l.granted = min c.shortfall.toNat (Count.exactSum (l.reads.map Offer.limit))
  grants : l.grants.map Prod.fst = done.map Offer.key

variable {c : CapacityCounts} {offers done : List (Offer κ)} {l : Ledger κ} {o : Offer κ}

omit [Std.TransOrd κ] [Std.LawfulEqOrd κ] in
theorem accounted_nil (c : CapacityCounts) : Accounted c [] ({ counts := c } : Ledger κ) := by
  constructor
  case once => exact .nil
  case first => exact fun _ => rfl
  case untouched => exact fun _ _ => ⟨rfl, rfl⟩
  case spent => exact fun _ _ found => nomatch found
  case spare => exact fun _ _ found => nomatch found
  case missing => exact Nat.add_zero _
  case total => exact (Nat.min_zero _).symm
  case grants => rfl

namespace Accounted

/-- The limit of a key that comes up for the first time is read, and all of it can be granted. -/
theorem serve_new (h : Accounted c done l) (new : first? done o.key = none) :
    Accounted c (done ++ [o]) (l.serve o) := by
  obtain ⟨unread, nothing⟩ := h.untouched o.key new
  have units := l.toNat_units o
  have short := l.shortfall_serve o
  have firsts := Offer.first?_concat_new new
  rw [left_of_none unread] at units
  constructor
  case once =>
    rw [reads_serve_of_none unread, List.map_append, List.map_singleton, List.nodup_append]
    refine ⟨h.once, List.pairwise_singleton _ _, ?_⟩
    rintro key mem _ last rfl
    rw [List.mem_singleton.1 last] at mem
    exact Offer.first?_eq_none_iff.1 ((h.first o.key).trans new) mem
  case first =>
    intro key
    rw [reads_serve_of_none unread, Offer.first?_concat, Offer.first?_concat, h.first]
  case untouched =>
    intro key none
    rw [firsts] at none
    by_cases e : o.key = key
    · rw [if_pos e] at none
      cases none
    · rw [if_neg e] at none
      rw [find?_serve, grantedTo_serve, if_neg (Ne.symm e), if_neg (Ne.symm e)]
      exact h.untouched key none
  case spent =>
    intro key first found
    rw [firsts] at found
    rw [find?_serve, grantedTo_serve]
    by_cases e : o.key = key
    · subst e
      rw [if_pos rfl] at found
      cases found
      refine ⟨_, if_pos rfl, ?_⟩
      rw [if_pos rfl, left_of_none unread, Count.toNat_satSub, nothing]
      omega
    · rw [if_neg e] at found
      rw [if_neg (Ne.symm e), if_neg (Ne.symm e)]
      exact h.spent key first found
  case spare =>
    intro key left found
    rw [find?_serve] at found
    by_cases e : key = o.key
    · rw [if_pos e, left_of_none unread] at found
      rw [← Option.some.inj found, Count.toNat_satSub]
      omega
    · rw [if_neg e] at found
      have before := h.spare key left found
      omega
  case missing =>
    have before := h.missing
    rw [granted_serve]
    omega
  case total =>
    have before := h.missing
    have total := h.total
    have limits : Count.exactSum ((l.serve o).reads.map Offer.limit) =
        Count.exactSum (l.reads.map Offer.limit) + o.limit.toNat := by
      simp [reads_serve_of_none unread, Count.exactSum_append, Count.exactSum]
    rw [granted_serve, limits]
    omega
  case grants => rw [keys_serve, h.grants, List.map_append, List.map_singleton]

/-- On a key that came up before nothing is granted any more, and its limit is not read again. -/
theorem serve_again (h : Accounted c done l) {earlier : Offer κ}
    (known : first? done o.key = some earlier) : Accounted c (done ++ [o]) (l.serve o) := by
  obtain ⟨left, found, -⟩ := h.spent o.key earlier known
  -- Either the limit is used up or nothing is missing.
  have idle : (l.units o).toNat = 0 := by
    have spare := h.spare o.key left found
    rw [toNat_units, left_of_some found]
    omega
  have nothing : l.units o = 0 := UInt32.toNat_inj.1 idle
  have reads := reads_serve_of_some found
  have granted := l.granted_serve o
  have short := l.shortfall_serve o
  have firsts := Offer.first?_concat_known known
  have left_eq : ∀ key, (l.serve o).budget.remaining.find? key = l.budget.remaining.find? key := by
    intro key
    rw [find?_serve, left_of_some found, nothing, Count.satSub_zero]
    by_cases e : key = o.key
    · rw [if_pos e, e, found]
    · rw [if_neg e]
  have grantedTo : ∀ key, (l.serve o).grantedTo key = l.grantedTo key := by
    intro key
    rw [grantedTo_serve, idle, ite_self, Nat.add_zero]
  constructor
  case once =>
    rw [reads]
    exact h.once
  case first =>
    intro key
    rw [reads, firsts, h.first]
  case untouched =>
    intro key none
    rw [left_eq, grantedTo]
    exact h.untouched key (firsts key ▸ none)
  case spent =>
    intro key first found
    rw [left_eq, grantedTo]
    exact h.spent key first (firsts key ▸ found)
  case spare =>
    intro key left found
    rw [left_eq] at found
    have before := h.spare key left found
    omega
  case missing =>
    have before := h.missing
    omega
  case total => rw [granted, idle, Nat.add_zero, reads, h.total]
  case grants => rw [keys_serve, h.grants, List.map_append, List.map_singleton]

theorem serve (h : Accounted c done l) (o : Offer κ) : Accounted c (done ++ [o]) (l.serve o) := by
  cases known : first? done o.key with
  | none => exact h.serve_new known
  | some earlier => exact h.serve_again known

end Accounted

theorem accounted (c : CapacityCounts) (offers : List (Offer κ)) :
    Accounted c offers (serveAll c offers) := by
  -- From the end of the list: the books are kept for the offers served so far.
  induction offers using List.reverseRecOn with
  | nil => exact accounted_nil c
  | append_singleton done o ih =>
    rw [serveAll, List.foldl_concat]
    exact ih.serve o

/-! ## All steps -/

omit [DecidableEq κ] in
theorem grants_prefix (rest : List (Offer κ)) (l : Ledger κ) :
    l.grants <+: (rest.foldl Ledger.serve l).grants := by
  induction rest generalizing l with
  | nil => exact List.prefix_refl _
  | cons o rest ih =>
    have first : l.grants <+: (l.serve o).grants := by
      rw [serve_eq]
      exact List.prefix_append _ _
    rw [List.foldl_cons]
    exact first.trans (ih (l.serve o))

/-- Whatever is missing at first, and whatever limits are offered in whatever order: the limit of a
key is read once, at the first offer for the key, and no more is granted on the key. All grants
together are the shortfall or the limits offered first, whichever is less. After each step, what is
missing is the demand that is covered neither by the capacity there was nor by the grants so far. -/
theorem grants_exact (c : CapacityCounts) (offers : List (Offer κ)) :
    ((serveAll c offers).reads.map Offer.key).Nodup ∧
    (serveAll c offers).reads.Perm (Offer.firsts offers) ∧
    (serveAll c offers).grants.map Prod.fst = offers.map Offer.key ∧
    (∀ key o, first? offers key = some o → (serveAll c offers).grantedTo key ≤ o.limit.toNat) ∧
    (serveAll c offers).granted = min c.shortfall.toNat (Offer.limits offers) ∧
    ∀ done, done <+: offers → (serveAll c done).grants <+: (serveAll c offers).grants ∧
      (serveAll c done).counts.shortfall.toNat =
        c.demand.toNat - (c.available.toNat + c.inFlight.toNat + (serveAll c done).granted) := by
  have books := accounted c offers
  have reads := Offer.perm_firsts books.once books.first
  have total := books.total
  rw [Count.exactSum_perm (reads.map Offer.limit)] at total
  refine ⟨books.once, reads, books.grants, ?_, total, ?_⟩
  · intro key o found
    obtain ⟨left, -, sum⟩ := books.spent key o found
    omega
  · rintro done ⟨rest, rfl⟩
    have missing := (accounted c done).missing
    have start := c.toNat_shortfall
    refine ⟨?_, by omega⟩
    rw [serveAll, serveAll, List.foldl_append]
    exact grants_prefix rest _

end Ledger

/-! ## Visits as steps -/

/-- A visit to a provider that may be asked, and delivers what it is asked for, serves the offer of
what the limiter leaves to the provider. -/
theorem Visit.Leads.serves {L : Type} [Limiter L] {e : Engine} {b : Behaviour} {w : Wiring}
    {gives : Answering} {v : Visit L} {y : Site L × ReviewState} {c : CapacityCounts}
    (h : v.Leads e b w gives y) (may : v.eligible e b = true) (exact : v.Exact e b)
    (known : v.state.counts? v.resource = some c) :
    let offer : Offer Slot := ⟨v.slot, Limiter.leaves v.site.limiter v.slot⟩
    let l : Ledger Slot := { counts := c, budget := v.state.budget }
    y.2.unsatisfied v.resource = (l.serve offer).counts.shortfall ∧
      ∀ slot, y.2.budget.remaining.find? slot = (l.serve offer).budget.remaining.find? slot := by
  intro offer l
  have short : v.state.unsatisfied v.resource = c.shortfall := by
    rw [ReviewState.unsatisfied_eq, known]
    rfl
  have units : v.delivered = l.units offer := by
    rw [h.delivered_eq exact, Visit.units, if_pos may, short]
    rfl
  constructor
  · have after := h.unsatisfied v.resource
    rw [if_pos rfl, short, units] at after
    exact UInt32.toNat_inj.1 (after.trans (l.shortfall_serve offer).symm)
  · intro slot
    rw [Ledger.find?_serve]
    by_cases own : slot = v.slot
    · rw [if_pos own, own, h.left may, units]
      rfl
    · rw [if_neg own, h.budget fun _ => own]

/-! ## Limits that come up again -/

namespace Sample

/-- Four units are missing; with them the capacity is as large as counts can be. -/
def nearlyFull : CapacityCounts := ⟨4294967295, 4294967290, 1⟩

/-- Three limits, two of which come up again. -/
def offers : List (Offer Nat) := [⟨1, 1⟩, ⟨2, 2⟩, ⟨1, 9⟩, ⟨3, 9⟩, ⟨2, 7⟩]

end Sample

/-- The first two limits are used up, and one unit of the third is granted. Nothing is granted where
limits come up again, though they are offered higher. -/
theorem Ledger.grants_of_sample :
    (serveAll Sample.nearlyFull Sample.offers).grants = [(1, 1), (2, 2), (1, 0), (3, 1), (2, 0)] ∧
    (serveAll Sample.nearlyFull Sample.offers).reads = [⟨1, 1⟩, ⟨2, 2⟩, ⟨3, 9⟩] ∧
    Offer.first? Sample.offers 2 = some ⟨2, 2⟩ ∧
    (serveAll Sample.nearlyFull Sample.offers).grantedTo 2 ≤ 2 ∧
    (serveAll Sample.nearlyFull Sample.offers).granted = min 4 12 ∧
    [⟨1, 1⟩, ⟨2, 2⟩] <+: Sample.offers ∧
    (serveAll Sample.nearlyFull [⟨1, 1⟩, ⟨2, 2⟩]).counts.shortfall.toNat =
      4294967295 - (4294967290 + 1 + 3) := by
  obtain ⟨-, -, -, limit, total, each⟩ := Ledger.grants_exact Sample.nearlyFull Sample.offers
  have second : Offer.first? Sample.offers 2 = some ⟨2, 2⟩ := rfl
  have early : [⟨1, 1⟩, ⟨2, 2⟩] <+: Sample.offers := ⟨_, rfl⟩
  have three : (serveAll Sample.nearlyFull [⟨1, 1⟩, ⟨2, 2⟩]).granted = 3 := by decide
  refine ⟨by decide, by decide, second, limit 2 _ second, ?_, early, ?_⟩
  · exact total.trans (by decide)
  · have short := (each _ early).2
    rw [three] at short
    exact short

end Muster
