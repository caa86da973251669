import Mathlib.Data.List.Forall2
import Muster.Proofs.Allocation

/-!
# Deliveries on record

A provider delivers capacity of several units each, and a review puts the delivery on record: every
unit goes to an item without a link, the first unit to the first of them, until units or items run
out. `ReviewState.HandedOut` says this by places in the list of items, so that it also means
something where two items have one identifier, and `PlannedCapacity.Draws` says in which order the
units are used.

Deliveries add up. What several of them come to is what one delivery of all their capacity comes to,
since the second one goes on with the items that the first one left, and sums that stop at the
largest count may be taken in portions.

**Main statement.** `ReviewState.deliveries_exact`.
-/

namespace Muster

/-! ## Units in the order of use -/

namespace PlannedCapacity

/-- Units drawn from a delivery: each capacity is used up before the next one is begun. -/
inductive Draws : List PlannedCapacity → List PlannedId → Prop
  | nil : Draws [] []
  | part {p planned n} : n ≤ p.units.toNat → Draws (p :: planned) (List.replicate n p.id)
  | whole {p planned ids} : Draws planned ids →
      Draws (p :: planned) (List.replicate p.units.toNat p.id ++ ids)

/-- The first units of a delivery are drawn in order. -/
theorem draws_take (planned : List PlannedCapacity) (n : Nat) :
    Draws planned ((unitList planned).take n) := by
  induction planned generalizing n with
  | nil =>
    rw [unitList, List.flatMap_nil, List.take_nil]
    exact .nil
  | cons p planned ih =>
    rw [unitList, List.flatMap_cons, List.take_append, List.take_replicate, List.length_replicate]
    rcases Nat.le_total n p.units.toNat with few | many
    · rw [Nat.min_eq_left few, Nat.sub_eq_zero_of_le few, List.take_zero, List.append_nil]
      exact .part few
    · rw [Nat.min_eq_right many]
      exact .whole (ih (n - p.units.toNat))

end PlannedCapacity

namespace ReviewState

open PlannedCapacity

variable {items : List PendingItem} {units : List (PlannedId × Nat)}
  {planned : List PlannedCapacity}

/-! ## Units for items -/

/-- The places of the items without a link. -/
def openPlaces (items : List PendingItem) : List Nat := items.findIdxs (·.planned.isNone)

theorem openPlaces_cons (x : PendingItem) (items : List PendingItem) :
    openPlaces (x :: items) = if x.planned.isNone then 0 :: (openPlaces items).map (· + 1)
      else (openPlaces items).map (· + 1) := by
  rw [openPlaces, List.findIdxs_cons, Nat.zero_add, List.findIdxs_start]
  rfl

theorem length_openPlaces (items : List PendingItem) :
    (openPlaces items).length = (unlinked items).length := by
  rw [openPlaces, List.length_findIdxs, List.countP_eq_length_filter, unlinked]

theorem mem_openPlaces {i : Nat} {x : PendingItem} (here : items[i]? = some x)
    (free : x.planned = none) : i ∈ openPlaces items := by
  obtain ⟨within, rfl⟩ := List.getElem?_eq_some_iff.1 here
  exact List.mem_findIdxs_iff_exists_getElem_pos.2 ⟨within, by rw [free]; rfl⟩

/-- At the place `i` an item without a link became an item with this one. -/
def LinkedAt (items items' : List PendingItem) (i : Nat) (link : Link) : Prop :=
  ∃ x, items[i]? = some x ∧ x.planned = none ∧ link.item = x.item.id ∧
    items'[i]? = some { x with planned := some link.planned }

/-- The units of a delivery were handed out to the items at some places, one unit each. -/
structure HandedOut (items : List PendingItem) (planned : List PlannedCapacity)
    (places : List Nat) (links : List Link) (items' : List PendingItem) : Prop where
  /-- No place twice, and in the order of the items. -/
  ascending : places.Pairwise (· < ·)
  linked : List.Forall₂ (LinkedAt items items') places links
  /-- An item that is left without a link stands behind all that got one. -/
  oldest : ∀ i x, items[i]? = some x → x.planned = none → i ∉ places → ∀ j ∈ places, j < i
  /-- Either items or units have run out. -/
  number : links.length = min (unlinked items).length (Count.exactSum (planned.map (·.units)))
  inOrder : Draws planned (links.map (·.planned))
  others : ∀ i, i ∉ places → items'[i]? = items[i]?

theorem LinkedAt.cons {items' : List PendingItem} {i : Nat} {link : Link} (x x' : PendingItem)
    (h : LinkedAt items items' i link) : LinkedAt (x :: items) (x' :: items') (i + 1) link := h

/-- Each of the first items without a link gets the link that comes at its turn. -/
theorem linked_linkUnits (units : List (PlannedId × Nat)) (items : List PendingItem) :
    List.Forall₂ (LinkedAt items (linkUnits units items).1)
      ((openPlaces items).take (unitIds units).length) (linkUnits units items).2 := by
  induction items generalizing units with
  | nil =>
    rw [show openPlaces [] = [] from rfl, List.take_nil]
    exact .nil
  | cons x items ih =>
    obtain ⟨item, planned⟩ := x
    rw [openPlaces_cons]
    cases planned with
    | some p =>
      simp only [linkUnits, Option.isSome_some, Option.isNone_some, Bool.false_eq_true, if_true,
        if_false, List.map_take.symm, List.forall₂_map_left_iff]
      exact (ih units).imp fun _ _ h => h.cons _ _
    | none =>
      simp only [linkUnits, Option.isSome_none, Option.isNone_none, Bool.false_eq_true, if_true,
        if_false]
      cases next : nextUnit? units with
      | none =>
        rw [unitIds_of_none next]
        exact .nil
      | some unit =>
        obtain ⟨id, left⟩ := unit
        rw [unitIds_of_some next, List.length_cons, List.take_succ_cons, ← List.map_take]
        refine .cons ⟨_, rfl, rfl, rfl, rfl⟩ (List.forall₂_map_left_iff.2 ?_)
        exact (ih left).imp fun _ _ h => h.cons _ _

/-- At all other places nothing changes. -/
theorem others_linkUnits (units : List (PlannedId × Nat)) (items : List PendingItem) {i : Nat}
    (other : i ∉ (openPlaces items).take (unitIds units).length) :
    (linkUnits units items).1[i]? = items[i]? := by
  induction items generalizing units i with
  | nil => rfl
  | cons x items ih =>
    obtain ⟨item, planned⟩ := x
    rw [openPlaces_cons] at other
    cases planned with
    | some p =>
      simp only [linkUnits, Option.isSome_some, if_true]
      cases i with
      | zero => rfl
      | succ i =>
        refine ih units fun mem => other ?_
        rw [Option.isNone_some, if_neg Bool.false_ne_true, ← List.map_take]
        exact List.mem_map_of_mem mem
    | none =>
      simp only [linkUnits, Option.isSome_none, Bool.false_eq_true, if_false]
      cases next : nextUnit? units with
      | none => rfl
      | some unit =>
        rw [Option.isNone_none, if_pos rfl, unitIds_of_some next, List.length_cons,
          List.take_succ_cons, ← List.map_take, List.mem_cons, not_or] at other
        cases i with
        | zero => exact absurd rfl other.1
        | succ i => exact ih unit.2 fun mem => other.2 (List.mem_map_of_mem mem)

/-- The links are to the first units. -/
theorem planned_pairUp (items : List PendingItem) (ids : List PlannedId) :
    (pairUp items ids).map (·.planned) = ids.take items.length := by
  induction items generalizing ids with
  | nil => rfl
  | cons x items ih =>
    cases ids with
    | nil => rfl
    | cons id ids => exact congrArg (id :: ·) (ih ids)

theorem handedOut_linkUnits (planned : List PlannedCapacity) (items : List PendingItem) :
    HandedOut items planned
      ((openPlaces items).take (Count.exactSum (planned.map (·.units))))
      (linkUnits (planned.map fun p => (p.id, p.units.toNat)) items).2
      (linkUnits (planned.map fun p => (p.id, p.units.toNat)) items).1 := by
  have size : (unitIds (planned.map fun p => (p.id, p.units.toNat))).length =
      Count.exactSum (planned.map (·.units)) := by
    rw [unitIds_planned, length_unitList]
  have ascending : (openPlaces items).Pairwise (· < ·) := List.pairwise_findIdxs
  have linked := linked_linkUnits (planned.map fun p => (p.id, p.units.toNat)) items
  rw [size] at linked
  constructor
  case ascending => exact ascending.sublist (List.take_sublist _ _)
  case linked => exact linked
  case oldest =>
    intro i x here free left j mem
    have parts := List.take_append_drop (Count.exactSum (planned.map (·.units))) (openPlaces items)
    have behind := mem_openPlaces here free
    rw [← parts] at ascending behind
    exact (List.pairwise_append.1 ascending).2.2 j mem i
      ((List.mem_append.1 behind).resolve_left left)
  case number => rw [← linked.length_eq, List.length_take, length_openPlaces, Nat.min_comm]
  case inOrder =>
    rw [links_linkUnits, unitIds_planned, planned_pairUp]
    exact draws_take planned _
  case others =>
    intro i other
    refine others_linkUnits _ items ?_
    rwa [size]

end ReviewState

/-! ## Sums in portions -/

namespace Count

theorem satAdd_assoc (a b c : Count) : (a.satAdd b).satAdd c = a.satAdd (b.satAdd c) := by
  refine UInt32.toNat_inj.1 ?_
  simp only [toNat_satAdd]
  omega

theorem satSub_satSub (a b c : Count) : (a.satSub b).satSub c = a.satSub (b.satAdd c) := by
  have := toNat_lt a
  refine UInt32.toNat_inj.1 ?_
  simp only [toNat_satSub, toNat_satAdd]
  omega

end Count

theorem PlannedCapacity.totalUnits_append (planned more : List PlannedCapacity) :
    totalUnits (planned ++ more) = (totalUnits planned).satAdd (totalUnits more) := by
  refine UInt32.toNat_inj.1 ?_
  simp only [totalUnits, Count.toNat_satAdd, Count.toNat_satSum, List.map_append,
    Count.exactSum_append]
  omega

theorem Budget.consume_consume {κ : Type} [Ord κ] [Std.TransOrd κ] [Std.LawfulEqOrd κ]
    [DecidableEq κ] (b : Budget κ) (key : κ) (units more : Count) :
    ((b.consume key units).2.consume key more).2 = (b.consume key (units.satAdd more)).2 := by
  simp only [consume, Table.findD, Table.find?_insert, if_true, Option.getD_some,
    Table.insert_insert, Count.satSub_satSub]

/-! ## Deliveries -/

namespace ReviewState

open PlannedCapacity

variable {s : ReviewState} {r : ResourceClass} {p : ProviderId}
  {planned more : List PlannedCapacity}

/-- What a provider has in flight still is a count if these units are added. -/
def Fits (s : ReviewState) (p : ProviderId) (deliveries : List (List PlannedCapacity)) : Prop :=
  (s.plannedFor p).toNat + Count.exactSum (deliveries.map totalUnits) < UInt32.size

/-- A delivery of capacity for a class is on record. -/
structure Recorded (s : ReviewState) (r : ResourceClass) (p : ProviderId)
    (planned : List PlannedCapacity) (links : List Link) (s' : ReviewState) : Prop where
  unknown : s.classes.find? r = none → links = [] ∧ s'.classes.find? r = none
  known : ∀ d, s.classes.find? r = some d → ∃ places d', s'.classes.find? r = some d' ∧
    HandedOut d.items planned places links d'.items
  otherClasses : ∀ r', r' ≠ r → s'.classes.find? r' = s.classes.find? r'
  total : (s'.plannedFor p).toNat = (s.plannedFor p).toNat + (totalUnits planned).toNat
  otherTotals : ∀ p', p' ≠ p → s'.plannedFor p' = s.plannedFor p'
  otherBudgets : ∀ slot, slot ≠ ⟨p, r⟩ →
    s'.budget.remaining.find? slot = s.budget.remaining.find? slot
  planned : s'.planned = s.planned ++ planned

/-- Puts deliveries on record one after the other. -/
def recordEach (s : ReviewState) (r : ResourceClass) (p : ProviderId) :
    List (List PlannedCapacity) → List Link × ReviewState
  | [] => ([], s)
  | planned :: rest =>
    let (links, s) := s.recordPlanned r p planned
    let (more, s) := recordEach s r p rest
    (links ++ more, s)

theorem recordPlanned_of_none (unknown : s.classes.find? r = none) (p : ProviderId)
    (planned : List PlannedCapacity) :
    (s.recordPlanned r p planned).1 = [] ∧
      (s.recordPlanned r p planned).2.classes = s.classes := by
  simp only [recordPlanned, unknown, and_self]

theorem recordPlanned_of_some {d : ClassDemand} (known : s.classes.find? r = some d)
    (p : ProviderId) (planned : List PlannedCapacity) :
    (s.recordPlanned r p planned).1 =
        (linkUnits (planned.map fun p => (p.id, p.units.toNat)) d.items).2 ∧
      (s.recordPlanned r p planned).2.classes = s.classes.insert r
        ⟨(linkUnits (planned.map fun p => (p.id, p.units.toNat)) d.items).1,
          d.counts.recordPlanned (totalUnits planned)⟩ := by
  simp only [recordPlanned, known, and_self]

theorem recorded (fits : s.Fits p [planned]) :
    s.Recorded r p planned (s.recordPlanned r p planned).1 (s.recordPlanned r p planned).2 := by
  constructor
  case unknown =>
    intro unknown
    obtain ⟨links, classes⟩ := recordPlanned_of_none unknown p planned
    exact ⟨links, by rw [classes, unknown]⟩
  case known =>
    intro d known
    obtain ⟨links, classes⟩ := recordPlanned_of_some known p planned
    have handed := handedOut_linkUnits planned d.items
    rw [← links] at handed
    refine ⟨_, ⟨_, d.counts.recordPlanned (totalUnits planned)⟩, ?_, handed⟩
    rw [classes, Table.find?_insert, if_pos rfl]
  case otherClasses =>
    intro r' other
    cases known : s.classes.find? r with
    | none => rw [(recordPlanned_of_none known _ _).2]
    | some d => rw [(recordPlanned_of_some known _ _).2, Table.find?_insert, if_neg other]
  case total =>
    have sum : (s.plannedFor p).toNat + (totalUnits planned).toNat < UInt32.size := fits
    rw [plannedFor_recordPlanned, if_pos rfl, UInt32.toNat_add]
    exact Nat.mod_eq_of_lt sum
  case otherTotals =>
    intro p' other
    rw [plannedFor_recordPlanned, if_neg other, UInt32.add_zero]
  case otherBudgets =>
    intro slot other
    rw [budget_recordPlanned, Budget.consume, Table.find?_insert, if_neg other]
  case planned => exact planned_recordPlanned s r p planned

theorem plannedByProvider_recordPlanned (s : ReviewState) (r : ResourceClass) (p : ProviderId)
    (planned : List PlannedCapacity) : (s.recordPlanned r p planned).2.plannedByProvider =
      s.plannedByProvider.insert p (s.plannedFor p + totalUnits planned) := by
  simp only [recordPlanned]
  split <;> rfl

/-- The second of two deliveries goes on with the items that the first one left. -/
theorem links_classes_append (s : ReviewState) (r : ResourceClass) (p : ProviderId)
    (planned more : List PlannedCapacity) :
    (s.recordPlanned r p (planned ++ more)).1 = (s.recordPlanned r p planned).1 ++
        ((s.recordPlanned r p planned).2.recordPlanned r p more).1 ∧
      (s.recordPlanned r p (planned ++ more)).2.classes =
        ((s.recordPlanned r p planned).2.recordPlanned r p more).2.classes := by
  cases known : s.classes.find? r with
  | none =>
    obtain ⟨links, classes⟩ := recordPlanned_of_none known p planned
    rw [← classes] at known
    obtain ⟨links', classes'⟩ := recordPlanned_of_none known p more
    rw [classes] at known
    obtain ⟨both, kept⟩ := recordPlanned_of_none known p (planned ++ more)
    rw [both, links, links', kept, classes', classes]
    exact ⟨rfl, rfl⟩
  | some d =>
    obtain ⟨links, classes⟩ := recordPlanned_of_some known p planned
    have left : (s.recordPlanned r p planned).2.classes.find? r = some
        ⟨(linkUnits (planned.map fun p => (p.id, p.units.toNat)) d.items).1,
          d.counts.recordPlanned (totalUnits planned)⟩ := by
      rw [classes, Table.find?_insert, if_pos rfl]
    obtain ⟨links', classes'⟩ := recordPlanned_of_some left p more
    obtain ⟨both, kept⟩ := recordPlanned_of_some known p (planned ++ more)
    rw [both, kept, links, links', classes', classes, Table.insert_insert, List.map_append,
      linkUnits_append]
    refine ⟨rfl, ?_⟩
    simp only [CapacityCounts.recordPlanned, totalUnits_append, Count.satAdd_assoc]

theorem eq_of_parts {s s' : ReviewState} (review : s.review = s'.review)
    (classes : s.classes = s'.classes) (totals : s.plannedByProvider = s'.plannedByProvider)
    (planned : s.planned = s'.planned) (budget : s.budget = s'.budget) : s = s' := by
  cases s
  cases s'
  simp only at review classes totals planned budget
  rw [review, classes, totals, planned, budget]

/-- Two deliveries are recorded as one, if the provider's units are a count with both. -/
theorem recordPlanned_append (fits : s.Fits p [planned, more]) :
    s.recordPlanned r p (planned ++ more) =
      ((s.recordPlanned r p planned).1 ++
        ((s.recordPlanned r p planned).2.recordPlanned r p more).1,
      ((s.recordPlanned r p planned).2.recordPlanned r p more).2) := by
  obtain ⟨links, classes⟩ := links_classes_append s r p planned more
  have sum : s.plannedFor p + totalUnits (planned ++ more) =
      s.plannedFor p + totalUnits planned + totalUnits more := by
    have small : (s.plannedFor p).toNat +
        ((totalUnits planned).toNat + ((totalUnits more).toNat + 0)) < 4294967296 := fits
    refine UInt32.toNat_inj.1 ?_
    simp only [totalUnits_append, UInt32.toNat_add, Count.toNat_satAdd]
    omega
  refine Prod.ext links (eq_of_parts ?_ classes ?_ ?_ ?_)
  · simp only [review_recordPlanned]
  · rw [plannedByProvider_recordPlanned, plannedByProvider_recordPlanned,
      plannedByProvider_recordPlanned, plannedFor_recordPlanned, if_pos rfl, Table.insert_insert,
      sum]
  · simp only [planned_recordPlanned, List.append_assoc]
  · simp only [budget_recordPlanned, totalUnits_append, Budget.consume_consume]

/-- After a delivery there is room for those that there was room for with it. -/
theorem Fits.after {first : List PlannedCapacity} {rest : List (List PlannedCapacity)}
    (fits : s.Fits p (first :: rest)) : (s.recordPlanned r p first).2.Fits p rest := by
  have small : (s.plannedFor p).toNat + ((totalUnits first).toNat +
      Count.exactSum (rest.map totalUnits)) < 4294967296 := fits
  show (((s.recordPlanned r p first).2.plannedFor p).toNat + _ < 4294967296)
  rw [plannedFor_recordPlanned, if_pos rfl, UInt32.toNat_add]
  omega

/-- What is delivered in portions is no more than the portions. -/
theorem toNat_totalUnits_flatten_le (deliveries : List (List PlannedCapacity)) :
    (totalUnits deliveries.flatten).toNat ≤ Count.exactSum (deliveries.map totalUnits) := by
  induction deliveries with
  | nil => exact Nat.le_refl 0
  | cons first rest ih =>
    rw [List.flatten_cons, totalUnits_append, Count.toNat_satAdd, List.map_cons, Count.exactSum]
    omega

/-- Any number of deliveries is recorded as one. -/
theorem recordEach_eq {first : List PlannedCapacity} {rest : List (List PlannedCapacity)}
    (fits : s.Fits p (first :: rest)) :
    s.recordEach r p (first :: rest) = s.recordPlanned r p (first ++ rest.flatten) := by
  induction rest generalizing s first with
  | nil => simp only [recordEach, List.flatten_nil, List.append_nil]
  | cons second rest ih =>
    have whole : s.Fits p [first, second ++ rest.flatten] := by
      have portions := toNat_totalUnits_flatten_le (second :: rest)
      have small : (s.plannedFor p).toNat + ((totalUnits first).toNat +
          Count.exactSum ((second :: rest).map totalUnits)) < 4294967296 := fits
      show (s.plannedFor p).toNat + ((totalUnits first).toNat +
        ((totalUnits (second :: rest).flatten).toNat + 0)) < 4294967296
      omega
    rw [List.flatten_cons, recordPlanned_append whole, ← ih fits.after]
    rfl

/-- A delivery goes, unit by unit, to the first items without a link, as far as both reach, and all
else in the review stays as it was; and however capacity is divided into deliveries, the record of
them is the record of one. This is so as long as the units of the provider are a count. -/
theorem deliveries_exact (s : ReviewState) (r : ResourceClass) (p : ProviderId) :
    (∀ planned, s.Fits p [planned] →
      s.Recorded r p planned (s.recordPlanned r p planned).1 (s.recordPlanned r p planned).2) ∧
    ∀ first rest, s.Fits p (first :: rest) →
      s.recordEach r p (first :: rest) = s.recordPlanned r p (first ++ rest.flatten) :=
  ⟨fun _ => recorded, fun _ _ => recordEach_eq⟩

end ReviewState

/-- A review of four items, the second of which has a link. -/
def Sample.oneLinked : ReviewState :=
  let item (n : Nat) : WorkItem := ⟨.ofNat n, .label "linux", .ofMilliseconds n⟩
  { review := .ofNat 0 : ReviewState }.withClass (.label "linux")
    ⟨[⟨item 1, none⟩, ⟨item 2, some (.ofNat 9)⟩, ⟨item 3, none⟩, ⟨item 4, none⟩], 0, 1⟩

/-- Capacity of no units, of two and of five. -/
def Sample.sizes : List PlannedCapacity :=
  [⟨.ofNat 10, .ofNat 1, .label "linux", 0⟩, ⟨.ofNat 11, .ofNat 1, .label "linux", 2⟩,
    ⟨.ofNat 12, .ofNat 1, .label "linux", 5⟩]

/-- The capacity without units is passed over, the next one is used up, and the last one has units
left. Delivered one by one it comes to the same. -/
theorem ReviewState.deliveries_of_sample :
    Sample.oneLinked.Fits (.ofNat 1) [Sample.sizes] ∧
    (Sample.oneLinked.recordPlanned (.label "linux") (.ofNat 1) Sample.sizes).1 =
      [⟨.ofNat 1, .ofNat 11⟩, ⟨.ofNat 3, .ofNat 11⟩, ⟨.ofNat 4, .ofNat 12⟩] ∧
    ((Sample.oneLinked.recordPlanned (.label "linux") (.ofNat 1) Sample.sizes).2.plannedFor
      (.ofNat 1)).toNat = 7 ∧
    Sample.oneLinked.Fits (.ofNat 1) (Sample.sizes.map fun p => [p]) ∧
    Sample.oneLinked.recordEach (.label "linux") (.ofNat 1) (Sample.sizes.map fun p => [p]) =
      Sample.oneLinked.recordPlanned (.label "linux") (.ofNat 1) Sample.sizes := by
  obtain ⟨record, portions⟩ :=
    ReviewState.deliveries_exact Sample.oneLinked (.label "linux") (.ofNat 1)
  have whole : Sample.oneLinked.Fits (.ofNat 1) [Sample.sizes] := by
    unfold ReviewState.Fits
    decide
  have each : Sample.oneLinked.Fits (.ofNat 1) (Sample.sizes.map fun p => [p]) := by
    unfold ReviewState.Fits
    decide
  exact ⟨whole, by decide, (record _ whole).total, each, portions _ _ each⟩

end Muster
