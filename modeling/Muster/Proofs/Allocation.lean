import Muster.Proofs.Precedence

/-!
# Units for the items in line

A review gives the units of the capacity it has planned to the items that have no link, one unit
each, in the order of both. It does so answer by answer, in its own list of items, and reports each
new link to the queue. What comes of it is what comes of giving out all units at once: the first
item without a link gets the first unit, the second item the second unit, until items or units run
out.

The review lists its links on its own items; the queue writes them over its old links, which may be
to capacity that is not in flight any more. Once what was planned is in flight, both show the same.

**Main statements.** `linkUnits_append`: units may be given out in several portions;
`oldestFirst_allotted`: what the queue shows in the end.
-/

namespace Muster

namespace PlannedCapacity

/-- The capacity of each unit, one after the other. -/
def unitList (planned : List PlannedCapacity) : List PlannedId :=
  planned.flatMap fun p => List.replicate p.units.toNat p.id

theorem length_unitList (planned : List PlannedCapacity) :
    (unitList planned).length = Count.exactSum (planned.map (·.units)) := by
  induction planned with
  | nil => rfl
  | cons p planned ih =>
    rw [unitList, List.flatMap_cons, List.length_append, List.length_replicate]
    exact congrArg _ ih

theorem mem_unitList {planned : List PlannedCapacity} {id : PlannedId}
    (mem : id ∈ unitList planned) : ∃ p ∈ planned, p.id = id := by
  obtain ⟨p, listed, here⟩ := List.mem_flatMap.1 mem
  exact ⟨p, listed, (List.eq_of_mem_replicate here).symm⟩

end PlannedCapacity

namespace ReviewState

variable {units more left : List (PlannedId × Nat)} {items : List PendingItem}
  {id : PlannedId} {x : PendingItem}

/-! ## Units -/

/-- The capacity of each unit. -/
def unitIds (units : List (PlannedId × Nat)) : List PlannedId :=
  units.flatMap fun u => List.replicate u.2 u.1

theorem unitIds_cons (id : PlannedId) (n : Nat) (units : List (PlannedId × Nat)) :
    unitIds ((id, n) :: units) = List.replicate n id ++ unitIds units :=
  List.flatMap_cons

theorem unitIds_planned (planned : List PlannedCapacity) :
    unitIds (planned.map fun p => (p.id, p.units.toNat)) = PlannedCapacity.unitList planned :=
  List.flatMap_map _ _ _

theorem unitIds_of_none (h : nextUnit? units = none) : unitIds units = [] := by
  induction units with
  | nil => rfl
  | cons u units ih =>
    obtain ⟨id, _ | n⟩ := u
    · exact ih h
    · cases h

theorem unitIds_of_some (h : nextUnit? units = some (id, left)) :
    unitIds units = id :: unitIds left := by
  induction units with
  | nil => cases h
  | cons u units ih =>
    obtain ⟨id', _ | n⟩ := u
    · exact ih h
    · cases h
      rw [unitIds_cons, unitIds_cons, List.replicate_succ, List.cons_append]

theorem nextUnit?_append (units more : List (PlannedId × Nat)) :
    nextUnit? (units ++ more) = match nextUnit? units with
      | none => nextUnit? more
      | some (id, left) => some (id, left ++ more) := by
  induction units with
  | nil => rfl
  | cons u units ih =>
    obtain ⟨id, _ | n⟩ := u
    · exact ih
    · rfl

/-! ## Links -/

/-- The items for which no capacity is planned. -/
def unlinked (items : List PendingItem) : List PendingItem := items.filter (·.planned.isNone)

/-- The first items get the first units. -/
def pairUp (items : List PendingItem) (ids : List PlannedId) : List Link :=
  (items.zip ids).map fun x => ⟨x.1.item.id, x.2⟩

/-- The capacity that an item is given. -/
def given (links : List Link) (id : WorkItemId) : Option PlannedId :=
  (links.find? (·.item == id)).map (·.planned)

theorem given_cons_self (link : Link) (links : List Link) :
    given (link :: links) link.item = some link.planned := by
  simp [given]

theorem given_cons_of_ne {link : Link} {id : WorkItemId} (other : link.item ≠ id)
    (links : List Link) : given (link :: links) id = given links id := by
  simp [given, other]

theorem given_eq_none {links : List Link} {id : WorkItemId} (absent : id ∉ links.map (·.item)) :
    given links id = none := by
  refine Option.map_eq_none_iff.2 (List.find?_eq_none.2 fun link mem same => ?_)
  exact absent (List.mem_map.2 ⟨link, mem, beq_iff_eq.1 same⟩)

theorem linkUnits_nil (items : List PendingItem) : linkUnits [] items = (items, []) := by
  induction items with
  | nil => rfl
  | cons x items ih =>
    simp only [linkUnits, ih]
    split <;> rfl

/-- The units go to the items without a link, in the order of both. -/
theorem links_linkUnits (units : List (PlannedId × Nat)) (items : List PendingItem) :
    (linkUnits units items).2 = pairUp (unlinked items) (unitIds units) := by
  induction items generalizing units with
  | nil => rfl
  | cons x items ih =>
    obtain ⟨item, planned⟩ := x
    cases planned with
    | some p => exact ih units
    | none =>
      simp only [linkUnits, Option.isSome_none, Bool.false_eq_true, if_false]
      cases next : nextUnit? units with
      | none =>
        rw [unitIds_of_none next, pairUp, List.zip_nil_right]
        rfl
      | some unit =>
        rw [unitIds_of_some next]
        exact congrArg _ (ih unit.2)

/-- Units that are given out in two portions are given to the same items. -/
theorem linkUnits_append (units more : List (PlannedId × Nat)) (items : List PendingItem) :
    linkUnits (units ++ more) items =
      ((linkUnits more (linkUnits units items).1).1,
        (linkUnits units items).2 ++ (linkUnits more (linkUnits units items).1).2) := by
  induction items generalizing units with
  | nil => rfl
  | cons x items ih =>
    obtain ⟨item, planned⟩ := x
    cases planned with
    | some p => simp only [linkUnits, Option.isSome_some, if_true, ih]
    | none =>
      simp only [linkUnits, Option.isSome_none, Bool.false_eq_true, if_false, nextUnit?_append]
      cases next : nextUnit? units with
      | none =>
        simp only [linkUnits, Option.isSome_none, Bool.false_eq_true, if_false, List.nil_append]
      | some unit => simp only [linkUnits, Option.isSome_some, if_true, ih, List.cons_append]

/-- What the review lists in the end are the items with the links that they were given. -/
theorem items_linkUnits_eq (once : (items.map (·.item.id)).Nodup)
    (units : List (PlannedId × Nat)) : (linkUnits units items).1 = items.map fun x =>
      { x with planned := x.planned.or (given (linkUnits units items).2 x.item.id) } := by
  induction items generalizing units with
  | nil => rfl
  | cons x items ih =>
    obtain ⟨item, planned⟩ := x
    obtain ⟨first, rest⟩ := List.nodup_cons.1 once
    cases planned with
    | some p => exact congrArg _ (ih rest units)
    | none =>
      simp only [linkUnits, Option.isSome_none, Bool.false_eq_true, if_false]
      cases next : nextUnit? units with
      | none => simp [given]
      | some unit =>
        refine congrArg₂ List.cons ?_ ((ih rest unit.2).trans (List.map_congr_left fun y mem => ?_))
        · exact congrArg (PendingItem.mk item) (given_cons_self ⟨item.id, unit.1⟩ _).symm
        · rw [given_cons_of_ne fun same => first (List.mem_map.2 ⟨y, mem, same.symm⟩)]

theorem items_pairUp (items : List PendingItem) (ids : List PlannedId) :
    ((pairUp items ids).map (·.item)).Sublist (items.map (·.item.id)) := by
  induction items generalizing ids with
  | nil => exact List.Sublist.slnil
  | cons x items ih =>
    cases ids with
    | nil => exact List.nil_sublist _
    | cons id ids => exact (ih ids).cons_cons _

/-- Each item is given the unit that comes at its place. -/
theorem given_pairUp {ids : List PlannedId} {i : Nat} (once : (items.map (·.item.id)).Nodup)
    (here : items[i]? = some x) : given (pairUp items ids) x.item.id = ids[i]? := by
  induction items generalizing ids i with
  | nil => simp at here
  | cons y items ih =>
    obtain ⟨first, once⟩ := List.nodup_cons.1 once
    cases ids with
    | nil => simp [pairUp, given]
    | cons id ids =>
      cases i with
      | zero =>
        cases here
        exact given_cons_self _ _
      | succ i =>
        rw [List.getElem?_cons_succ] at here ⊢
        have other : y.item.id ≠ x.item.id := fun same =>
          first (List.mem_map.2 ⟨x, List.mem_of_getElem? here, same.symm⟩)
        exact (given_cons_of_ne other _).trans (ih once here)

/-- Whoever is given a unit is one of the items, and the unit one of the units. -/
theorem of_given {ids : List PlannedId} {id : WorkItemId} {p : PlannedId}
    (h : given (pairUp items ids) id = some p) : (∃ x ∈ items, x.item.id = id) ∧ p ∈ ids := by
  obtain ⟨link, found, rfl⟩ := Option.map_eq_some_iff.1 h
  obtain ⟨⟨x, p⟩, mem, rfl⟩ := List.mem_map.1 (List.mem_of_find?_eq_some found)
  obtain ⟨here, unit⟩ := List.of_mem_zip mem
  exact ⟨⟨x, here, by simpa using List.find?_some found⟩, unit⟩

end ReviewState

namespace Queue

open ReviewState PlannedCapacity

variable {q q' : Queue} {r : ResourceClass} {links : List Link} {planned : List PlannedCapacity}

/-! ## Links that a review reports -/

/-- The queue with new links over the old ones. -/
def linked (q : Queue) (links : List Link) : Queue :=
  { q with items := q.items.mapValues fun _ e =>
      { e with link := (given links e.item.id).or e.link } }

theorem linked_nil (q : Queue) : q.linked [] = q := by
  have items : (q.linked []).items = q.items := by
    refine Table.ext_find? fun id => ?_
    rw [linked, Table.find?_mapValues]
    cases q.items.find? id <;> rfl
  calc q.linked []
    _ = { q with items := (q.linked []).items } := rfl
    _ = q := by rw [items]

/-- A link may be written before the others. -/
theorem linked_cons (filed : q.Filed) {link : Link} {e : QueuedItem}
    (found : q.items.find? link.item = some e) (first : link.item ∉ links.map (·.item)) :
    linked { q with items := q.items.insert link.item { e with link := some link.planned } } links =
      q.linked (link :: links) := by
  refine congrArg (fun items => { q with items }) (Table.ext_find? fun id => ?_)
  rw [Table.find?_mapValues, Table.find?_mapValues, Table.find?_insert]
  have own := filed link.item e found
  by_cases here : id = link.item
  · subst here
    rw [if_pos rfl, found, Option.map_some, Option.map_some]
    simp only [own, given_eq_none first, given_cons_self, Option.none_or, Option.some_or]
  · rw [if_neg here]
    cases found' : q.items.find? id with
    | none => rfl
    | some e' =>
      have other : link.item ≠ e'.item.id := by
        rw [filed id e' found']
        exact Ne.symm here
      rw [Option.map_some, Option.map_some, given_cons_of_ne other]

/-- Links to items whose own links do not count get through. -/
theorem run_tracks (filed : q.Filed) (once : (links.map (·.item)).Nodup)
    (free : ∀ link ∈ links, ∃ e, q.items.find? link.item = some e ∧ q.live e.link = none) :
    q.run (links.map .track) = q.linked links := by
  induction links generalizing q with
  | nil => exact q.linked_nil.symm
  | cons link links ih =>
    obtain ⟨first, once⟩ := List.nodup_cons.1 once
    obtain ⟨e, found, dead⟩ := free link List.mem_cons_self
    have own := filed link.item e found
    have tracked : Op.apply q (.track link) =
        { q with items := q.items.insert link.item { e with link := some link.planned } } := by
      simp only [Op.apply, track, found, dead, orStay]
    rw [List.map_cons, run_cons, tracked, ← linked_cons filed found first]
    refine ih (filed.insert (e := { e with link := some link.planned }) rfl own) once ?_
    intro link' mem
    obtain ⟨e', found', dead'⟩ := free link' (List.mem_cons_of_mem _ mem)
    refine ⟨e', ?_, dead'⟩
    rw [Table.find?_insert, if_neg, found']
    exact fun same => first (List.mem_map.2 ⟨link', mem, same⟩)

/-! ## What a review leaves behind -/

/-- The items of a class, in line, for which no capacity in flight is planned. -/
def unserved (q : Queue) (r : ResourceClass) : List PendingItem := unlinked (q.snapshot r).items

/-- The links for the items of a class to which planned capacity is given. -/
def allotment (q : Queue) (r : ResourceClass) (planned : List PlannedCapacity) : List Link :=
  pairUp (q.unserved r) (unitList planned)

/-- The queue once the links are reported and the capacity is in flight. -/
def allotted (q : Queue) (r : ResourceClass) (planned : List PlannedCapacity) : Queue :=
  (q.run ((q.allotment r planned).map .track)).recordPending planned

/-- The capacity that was planned for a class went to the first items in line without a link, unit
by unit, and a review knows the items of the class as `items`. -/
structure OldestFirst (r : ResourceClass) (planned : List PlannedCapacity)
    (items : List PendingItem) (q q' : Queue) : Prop where
  /-- Links that counted stay. -/
  kept : ∀ id e p, q.items.find? id = some e → q.live e.link = some p →
    q'.items.find? id = some e ∧ q'.live e.link = some p
  elsewhere : ∀ id e, q.items.find? id = some e → e.item.resource ≠ r ∨ e.state = .waiting →
    q'.items.find? id = some e
  line : (q.unserved r).Pairwise fun a b => a.item.before b.item = true
  first : ∀ x ∈ (q.unserved r).take
      (min (q.unserved r).length (Count.exactSum (planned.map (·.units)))),
    q'.live (q'.linkOf x.item.id) ≠ none
  rest : ∀ x ∈ (q.unserved r).drop
      (min (q.unserved r).length (Count.exactSum (planned.map (·.units)))),
    q'.live (q'.linkOf x.item.id) = none
  /-- Each item got the unit that comes at its place. -/
  inOrder : ∀ (i : Nat) x p, (q.unserved r)[i]? = some x → (unitList planned)[i]? = some p →
    q'.linkOf x.item.id = some p
  /-- New links are to capacity that is in flight. -/
  new : ∀ id p, q'.linkOf id = some p → q.linkOf id ≠ some p → q'.inFlight.contains p = true
  shown : (q'.snapshot r).items = items

section Allotted

theorem unserved_nodup (filed : q.Filed) (r : ResourceClass) :
    ((q.unserved r).map (·.item.id)).Nodup :=
  (filed.snapshot_nodup r).sublist (List.filter_sublist.map _)

/-- Who stands in line without a link can run, is of the class, and has no link that counts. -/
theorem of_mem_unserved (filed : q.Filed) {x : PendingItem} (mem : x ∈ q.unserved r) :
    ∃ e, q.items.find? x.item.id = some e ∧ e.state = .buildable ∧ e.item.resource = r ∧
      q.live e.link = none := by
  obtain ⟨shown, free⟩ := List.mem_filter.1 mem
  obtain ⟨e, found, ready, ofClass, same⟩ := filed.mem_snapshot.1 shown
  refine ⟨e, found, ready, ofClass, ?_⟩
  rw [same] at free
  exact Option.isNone_iff_eq_none.1 free

/-- Only these are given anything, and what they are given was planned. -/
theorem of_allotment (filed : q.Filed) {id : WorkItemId} {p : PlannedId}
    (h : given (q.allotment r planned) id = some p) :
    (∃ e, q.items.find? id = some e ∧ e.state = .buildable ∧ e.item.resource = r ∧
      q.live e.link = none) ∧ p ∈ planned.map (·.id) := by
  obtain ⟨⟨x, mem, rfl⟩, unit⟩ := of_given h
  obtain ⟨c, listed, rfl⟩ := mem_unitList unit
  exact ⟨of_mem_unserved filed mem, List.mem_map_of_mem listed⟩

theorem allotted_eq (filed : q.Filed) (r : ResourceClass) (planned : List PlannedCapacity) :
    q.allotted r planned = (q.linked (q.allotment r planned)).recordPending planned := by
  rw [allotted, run_tracks filed]
  · exact (unserved_nodup filed r).sublist (items_pairUp _ _)
  · intro link mem
    obtain ⟨⟨x, p⟩, paired, rfl⟩ := List.mem_map.1 mem
    obtain ⟨e, found, -, -, dead⟩ := of_mem_unserved filed (List.of_mem_zip paired).1
    exact ⟨e, found, dead⟩

variable (filed : q.Filed) (fresh : ∀ p ∈ planned, ∀ id, q.linkOf id ≠ some p.id)
include filed

theorem find?_allotted (id : WorkItemId) : (q.allotted r planned).items.find? id =
    (q.items.find? id).map fun e =>
      { e with link := (given (q.allotment r planned) e.item.id).or e.link } := by
  rw [allotted_eq filed]
  exact Table.find?_mapValues _ _ _

theorem linkOf_allotted {id : WorkItemId} {e : QueuedItem} (found : q.items.find? id = some e) :
    (q.allotted r planned).linkOf id = (given (q.allotment r planned) id).or e.link := by
  have own := filed id e found
  subst own
  refine linkOf_of_find? (e := { e with
    link := (given (q.allotment r planned) e.item.id).or e.link }) ?_
  rw [find?_allotted filed, found, Option.map_some]

theorem contains_allotted (r : ResourceClass) (planned : List PlannedCapacity) (p : PlannedId) :
    (q.allotted r planned).inFlight.contains p = true ↔
      q.inFlight.contains p = true ∨ p ∈ planned.map (·.id) := by
  rw [allotted_eq filed]
  exact contains_store planned q.inFlight p

/-- Who has a link that counts, waits, or is of another class is given nothing. -/
theorem given_none {id : WorkItemId} {e : QueuedItem} (found : q.items.find? id = some e)
    (other : q.live e.link ≠ none ∨ e.item.resource ≠ r ∨ e.state = .waiting) :
    given (q.allotment r planned) id = none := by
  cases gift : given (q.allotment r planned) id with
  | none => rfl
  | some p =>
    obtain ⟨⟨e', found', ready, ofClass, dead⟩, -⟩ := of_allotment filed gift
    cases found.symm.trans found'
    rcases other with counts | other | waits
    · exact absurd dead counts
    · exact absurd ofClass other
    · cases ready.symm.trans waits

/-- An item that is given nothing stays as it was. -/
theorem find?_of_not_given {id : WorkItemId} {e : QueuedItem} (found : q.items.find? id = some e)
    (nothing : given (q.allotment r planned) id = none) :
    (q.allotted r planned).items.find? id = some e := by
  have own := filed id e found
  subst own
  rw [find?_allotted filed, found, Option.map_some, nothing, Option.none_or]

include fresh

/-- The links that count: those that counted before, and those that were given. -/
theorem live_allotted {id : WorkItemId} {e : QueuedItem} (found : q.items.find? id = some e) :
    (q.allotted r planned).live ((given (q.allotment r planned) id).or e.link) =
      (q.live e.link).or (given (q.allotment r planned) id) := by
  cases gift : given (q.allotment r planned) id with
  | some p =>
    obtain ⟨⟨e', found', -, -, dead⟩, listed⟩ := of_allotment filed gift
    cases found.symm.trans found'
    have flying := (contains_allotted filed r planned p).2 (.inr listed)
    rw [dead, Option.none_or, Option.some_or, live, Option.filter_some, if_pos flying]
  | none =>
    rw [Option.none_or, Option.or_none]
    cases link : e.link with
    | none => rfl
    | some p =>
      have old : p ∉ planned.map (·.id) := by
        intro listed
        obtain ⟨c, mem, rfl⟩ := List.mem_map.1 listed
        exact fresh c mem id ((linkOf_of_find? found).trans link)
      have same := contains_allotted filed r planned p
      rw [or_iff_left old, ← Bool.eq_iff_iff] at same
      simp only [live, Option.filter_some, same]

/-- A snapshot shows the items as the review lists them. -/
theorem snapshot_allotted : ((q.allotted r planned).snapshot r).items =
    (linkUnits (planned.map fun p => (p.id, p.units.toNat)) (q.snapshot r).items).1 := by
  have links : (linkUnits (planned.map fun p => (p.id, p.units.toNat)) (q.snapshot r).items).2 =
      q.allotment r planned := by
    rw [links_linkUnits, unitIds_planned]
    rfl
  rw [items_linkUnits_eq (filed.snapshot_nodup r), links]
  let give (x : PendingItem) : PendingItem :=
    { x with planned := x.planned.or (given (q.allotment r planned) x.item.id) }
  have buildable : (q.allotted r planned).buildable r = (q.buildable r).map fun e =>
      { e with link := (given (q.allotment r planned) e.item.id).or e.link } := by
    rw [allotted_eq filed]
    simp only [Queue.buildable, recordPending, linked, Table.values_mapValues, List.filter_map]
    rfl
  have listed : ((q.allotted r planned).buildable r).map
        (fun e => (⟨e.item, (q.allotted r planned).live e.link⟩ : PendingItem)) =
      ((q.buildable r).map fun e => ⟨e.item, q.live e.link⟩).map give := by
    rw [buildable, List.map_map, List.map_map]
    refine List.map_congr_left fun e mem => ?_
    have found := (filed.mem_buildable.1 mem).1
    exact congrArg (PendingItem.mk e.item) (live_allotted filed fresh found)
  exact (congrArg arrange listed).trans (arrange_map (f := give) (fun _ => rfl) _)

theorem oldestFirst_allotted : q.OldestFirst r planned
    (linkUnits (planned.map fun p => (p.id, p.units.toNat)) (q.snapshot r).items).1
    (q.allotted r planned) := by
  have once := unserved_nodup filed r
  have live : ∀ {i : Nat} {x}, (q.unserved r)[i]? = some x →
      (q.allotted r planned).live ((q.allotted r planned).linkOf x.item.id) =
        (unitList planned)[i]? := by
    intro i x here
    obtain ⟨e, found, -, -, dead⟩ := of_mem_unserved filed (List.mem_of_getElem? here)
    rw [linkOf_allotted filed found, live_allotted filed fresh found, dead, Option.none_or]
    exact given_pairUp once here
  constructor
  case kept =>
    intro id e p found counts
    have nothing : given (q.allotment r planned) id = none :=
      given_none filed found (.inl (by rw [counts]; exact nofun))
    have still := live_allotted (r := r) filed fresh found
    rw [nothing, Option.none_or, Option.or_none, counts] at still
    exact ⟨find?_of_not_given filed found nothing, still⟩
  case elsewhere =>
    exact fun id e found other =>
      find?_of_not_given filed found (given_none filed found (.inr other))
  case line => exact (filed.snapshot_inOrder r).sublist List.filter_sublist
  case first =>
    intro x mem none
    obtain ⟨i, here⟩ := List.mem_iff_getElem?.1 mem
    rw [List.getElem?_take] at here
    split at here
    · rename_i before
      rw [live here, List.getElem?_eq_none_iff, length_unitList] at none
      omega
    · cases here
  case rest =>
    intro x mem
    obtain ⟨i, here⟩ := List.mem_iff_getElem?.1 mem
    rw [List.getElem?_drop] at here
    have within := (List.getElem?_eq_some_iff.1 here).1
    rw [live here, List.getElem?_eq_none_iff, length_unitList]
    omega
  case inOrder =>
    intro i x p here unit
    obtain ⟨e, found, -⟩ := of_mem_unserved filed (List.mem_of_getElem? here)
    have gift : given (q.allotment r planned) x.item.id = some p :=
      (given_pairUp once here).trans unit
    rw [linkOf_allotted filed found, gift, Option.some_or]
  case new =>
    intro id p linked other
    cases found : q.items.find? id with
    | none =>
      rw [linkOf, find?_allotted filed, found] at linked
      cases linked
    | some e =>
      rw [linkOf_allotted filed found] at linked
      cases gift : given (q.allotment r planned) id with
      | none =>
        rw [gift, Option.none_or] at linked
        exact absurd ((linkOf_of_find? found).trans linked) other
      | some p' =>
        rw [gift, Option.some_or] at linked
        cases linked
        exact (contains_allotted filed r planned p).2 (.inr (of_allotment filed gift).2)
  case shown => exact snapshot_allotted filed fresh

end Allotted

end Queue

end Muster
