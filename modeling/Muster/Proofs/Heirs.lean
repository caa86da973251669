import Muster.Proofs.Precedence

/-!
# Links are handed on in line

When an item runs on an idle unit, the capacity that was planned for it is free for others. Its link
goes to the first item in line of the class that has none, which is the first one that a snapshot
shows without planned capacity. The heir is sought after the item has left the queue, and a snapshot
is taken before that: `heir?_spend` ties the two together.

So fewer items are linked to capacity in flight only when every item of the class that could use it
has a link already.

**Main statements.** `heir?_spend`; `assign_hands_on`: all that happens when an item runs.
-/

namespace Muster

namespace Queue

variable {q q' : Queue} {id : WorkItemId} {e : QueuedItem} {r : ResourceClass} {p : PlannedId}

/-! ## The heir -/

/-- The first item in line, the item `id` apart, for which no capacity is planned. -/
def firstUnlinked? (q : Queue) (r : ResourceClass) (id : WorkItemId) : Option PendingItem :=
  (q.snapshot r).items.find? fun x => x.planned.isNone && x.item.id ≠ id

/-- Without an item, the others can run as before. -/
theorem buildable_spend (filed : q.Filed) (id : WorkItemId) (e : QueuedItem) (r : ResourceClass) :
    (q.spend id e).buildable r = (q.buildable r).filter (·.item.id ≠ id) := by
  have rest : (q.spend id e).Filed := filed.erase rfl
  have others : (q.spend id e).buildable r =
      ((q.spend id e).buildable r).filter (·.item.id ≠ id) := by
    refine (List.filter_eq_self.2 fun x mem => ?_).symm
    obtain ⟨own, found⟩ := Table.find?_of_erase (rest.mem_buildable.1 mem).1
    exact decide_eq_true own
  rw [others, buildable, buildable, List.filter_filter, List.filter_filter]
  refine Table.filter_values_congr fun id' x test => ?_
  have other : x.item.id ≠ id := of_decide_eq_true (Bool.and_eq_true_iff.1 test).1
  show (q.items.erase id).find? id' = some x ↔ _
  rw [Table.find?_erase]
  by_cases own : id' = id
  · rw [if_pos own]
    refine iff_of_false (Option.some_ne_none x).symm fun found => other ?_
    exact (filed id' x found).trans own
  · rw [if_neg own]

/-- Who inherits a link of an item that runs is the first to stand in line without one. -/
theorem heir?_spend (filed : q.Filed) (id : WorkItemId) (e : QueuedItem) (r : ResourceClass) :
    ((q.spend id e).heir? r).map (fun x => ⟨x.item, q.live x.link⟩) = q.firstUnlinked? r id := by
  rw [firstUnlinked?, snapshot, find?_arrange _ fun _ => rfl, heir?, buildable_spend filed,
    List.filter_filter]
  rfl

/-- What becomes of the queue when an item runs. Its link is handed on if it counts and somebody
else stands in line without one. -/
theorem assign_cases (filed : q.Filed) (ran : q.assign id = .ok q') :
    ∃ e, q.items.find? id = some e ∧ e.state = .buildable ∧ q.availableOf e.item.resource ≠ 0 ∧
      ((q.live e.link = none ∨ q.firstUnlinked? e.item.resource id = none) ∧ q' = q.spend id e ∨
        ∃ p x, q.live e.link = some p ∧
          q.firstUnlinked? e.item.resource id = some ⟨x.item, none⟩ ∧
          (q.items.erase id).find? x.item.id = some x ∧ x.state = .buildable ∧
          x.item.resource = e.item.resource ∧ q.live x.link = none ∧
          q' = { q.spend id e with
            items := (q.items.erase id).insert x.item.id { x with link := some p } }) := by
  obtain ⟨e, found, ready, idle, ⟨dead, rfl⟩ | ⟨p, live, rfl⟩⟩ := assign_ok ran
  · exact ⟨e, found, ready, idle, .inl ⟨.inl dead, rfl⟩⟩
  · have rest : (q.spend id e).Filed := filed.erase rfl
    have same := heir?_spend filed id e e.item.resource
    refine ⟨e, found, ready, idle, ?_⟩
    rw [rest.bequeath_eq]
    cases heir : (q.spend id e).heir? e.item.resource with
    | none =>
      rw [heir] at same
      exact .inl ⟨.inr same.symm, rfl⟩
    | some x =>
      obtain ⟨listed, here, free⟩ := rest.heir heir
      obtain ⟨-, ready', resource⟩ := rest.mem_buildable.1 listed
      rw [heir, Option.map_some, show q.live x.link = none from free] at same
      exact .inr ⟨p, x, live, same.symm, here, ready', resource, free, rfl⟩

/-! ## All that happens when an item runs -/

/-- An item has left the queue and taken an idle unit of its class. -/
structure Assigned (id : WorkItemId) (e : QueuedItem) (q q' : Queue) : Prop where
  gone : q'.items.find? id = none
  idle : (q'.availableOf e.item.resource).toNat + 1 = (q.availableOf e.item.resource).toNat
  inFlight : q'.inFlight = q.inFlight
  others : ∀ r, r ≠ e.item.resource → q'.snapshot r = q.snapshot r
  /-- Waiting items and items of other classes are as before. -/
  elsewhere : ∀ id' x, x.item.resource ≠ e.item.resource ∨ x.state = .waiting →
    (q'.items.find? id' = some x ↔ q.items.find? id' = some x)
  /-- Its link goes to the first in line without one, and nothing else happens to the items. -/
  handed : ∀ p x, q.live e.link = some p → q.firstUnlinked? e.item.resource id = some x →
    ∃ y, q.items.find? x.item.id = some y ∧
      q'.items = (q.items.erase id).insert x.item.id { y with link := some p }
  kept : q.live e.link = none ∨ q.firstUnlinked? e.item.resource id = none →
    q'.items = q.items.erase id
  /-- Capacity in flight loses a link only if everybody in line has one. -/
  load : ∀ p, q.inFlight.contains p = true → q'.load p < q.load p →
    ∀ x ∈ (q'.snapshot e.item.resource).items, x.planned ≠ none

/-- A link that counts is not one that does not. -/
theorem link_ne_of_dead (flying : q.inFlight.contains p = true) {link : Option PlannedId}
    (dead : q.live link = none) : link ≠ some p := by
  rintro rfl
  simp only [live, Option.filter_some, flying, if_true] at dead
  cases dead

namespace Assigned

variable {x : QueuedItem}

/-- Nobody inherits a link. -/
theorem spend (filed : q.Filed) (found : q.items.find? id = some e) (ready : e.state = .buildable)
    (spends : q.Spends e.item.resource (q.spend id e))
    (nobody : q.live e.link = none ∨ q.firstUnlinked? e.item.resource id = none) :
    q.Assigned id e (q.spend id e) := by
  constructor
  case gone => exact (Table.find?_erase _ _ _).trans (if_pos rfl)
  case idle => exact spends.idle_eq
  case inFlight => rfl
  case others =>
    intro r other
    refine snapshot_congr rfl (spends.availableOf_eq other) fun id' x _ ofClass => ?_
    exact Table.find?_erase_iff found fun same => other (same ▸ ofClass.symm)
  case elsewhere =>
    rintro id' x other
    refine Table.find?_erase_iff found ?_
    rintro rfl
    rcases other with other | waits
    · exact other rfl
    · cases ready.symm.trans waits
  case handed =>
    intro p x live first
    rcases nobody with dead | nobody
    · cases live.symm.trans dead
    · cases first.symm.trans nobody
  case kept => exact fun _ => rfl
  case load =>
    intro p flying less x mem free
    have lost : q.load p = (q.spend id e).load p + _ := load_erase found rfl p
    have linked : e.link = some p := by
      by_contra other
      rw [if_neg other] at lost
      omega
    have rest : (q.spend id e).Filed := filed.erase rfl
    obtain ⟨y, here, ready', resource, rfl⟩ := rest.mem_snapshot.1 mem
    obtain ⟨other, old⟩ := Table.find?_of_erase here
    rcases nobody with dead | nobody
    · exact link_ne_of_dead flying dead linked
    · -- Whoever has no link stood in line before, and would have been found.
      have before : (⟨y.item, q.live y.link⟩ : PendingItem) ∈
          (q.snapshot e.item.resource).items :=
        filed.mem_snapshot.2 ⟨y, old, ready', resource, rfl⟩
      refine List.find?_eq_none.1 nobody _ before ?_
      rw [Bool.and_eq_true, decide_eq_true_iff]
      exact ⟨Option.isNone_iff_eq_none.2 free, other⟩

/-- Somebody inherits the link. -/
theorem bequest (found : q.items.find? id = some e) (ready : e.state = .buildable)
    (spends : q.Spends e.item.resource q') (live : q.live e.link = some p)
    (first : q.firstUnlinked? e.item.resource id = some ⟨x.item, none⟩)
    (here : (q.items.erase id).find? x.item.id = some x) (ready' : x.state = .buildable)
    (resource : x.item.resource = e.item.resource) (free : q.live x.link = none)
    (items : q'.items = (q.items.erase id).insert x.item.id { x with link := some p }) :
    q.Assigned id e q' := by
  obtain ⟨apart, old⟩ := Table.find?_of_erase here
  -- Apart from the two items, which are buildable and of the class, everybody is as before.
  have elsewhere : ∀ id' y, y.item.resource ≠ e.item.resource ∨ y.state = .waiting →
      (q'.items.find? id' = some y ↔ q.items.find? id' = some y) := by
    intro id' y other
    have differs : ∀ y', y'.item.resource = e.item.resource → y'.state = .buildable → y ≠ y' := by
      rintro y' ofClass able rfl
      rcases other with other | waits
      · exact other ofClass
      · cases able.symm.trans waits
    rw [items]
    exact (Table.find?_replace_iff here (differs x resource ready')
      (differs { x with link := some p } resource ready')).trans
        (Table.find?_erase_iff found (differs e rfl ready))
  constructor
  case gone =>
    rw [items, Table.find?_insert, if_neg apart.symm, Table.find?_erase, if_pos rfl]
  case idle => exact spends.idle_eq
  case inFlight => exact spends.inFlight
  case others =>
    intro r other
    exact snapshot_congr spends.inFlight (spends.availableOf_eq other) fun id' y _ ofClass =>
      elsewhere id' y (.inl fun same => other (ofClass.symm.trans same))
  case elsewhere => exact elsewhere
  case handed =>
    intro p' x' live' first'
    cases live.symm.trans live'
    cases first.symm.trans first'
    exact ⟨x, old, items⟩
  case kept =>
    rintro (dead | nobody)
    · cases live.symm.trans dead
    · cases first.symm.trans nobody
  case load =>
    intro p' flying less
    have lost : q.load p' = (q.spend id e).load p' + _ := load_erase found rfl p'
    have gained : q'.load p' + (if x.link = some p' then 1 else 0) =
        (q.spend id e).load p' + if some p = some p' then 1 else 0 :=
      load_replace (q := q.spend id e) here items p'
    rw [if_neg (link_ne_of_dead flying free)] at gained
    rw [(Option.filter_eq_some_iff.1 live).1] at lost
    omega

end Assigned

theorem Assigned.of_assign (filed : q.Filed) (ran : q.assign id = .ok q') :
    ∃ e, q.items.find? id = some e ∧ e.state = .buildable ∧ q.Assigned id e q' := by
  obtain ⟨e, found, ready, idle, ⟨nobody, rfl⟩ | ⟨p, x, live, first, here, ready', resource, free,
    rfl⟩⟩ := assign_cases filed ran
  · exact ⟨e, found, ready, .spend filed found ready ⟨idle, rfl, rfl⟩ nobody⟩
  · exact ⟨e, found, ready,
      .bequest found ready ⟨idle, rfl, rfl⟩ live first here ready' resource free rfl⟩

/-- An item that runs leaves the queue and takes an idle unit of its class. If its link counts, the
first item in line of its class that has none gets it. Nothing else changes. -/
theorem assign_hands_on (reached : q.Reached) (ran : q.assign id = .ok q') :
    ∃ e, q.items.find? id = some e ∧ e.state = .buildable ∧ q.Assigned id e q' :=
  Assigned.of_assign reached.filed ran

/-- Two items, one of them linked to capacity in flight, and an idle unit. -/
def lineOps : List Op := [
  .submitBuildable (Sample.item 1), .submitBuildable (Sample.item 2),
  .recordPending [⟨.ofNat 1, .ofNat 1, .unlabeled, 1⟩, ⟨.ofNat 2, .ofNat 1, .unlabeled, 1⟩],
  .track ⟨.ofNat 1, .ofNat 2⟩, .online (.ofNat 1)]

theorem hands_on_of_lineOps : ∃ q', (empty.run lineOps).assign (.ofNat 1) = .ok q' ∧
    q'.linkOf (.ofNat 2) = some (.ofNat 2) ∧
    ∃ e, (empty.run lineOps).items.find? (.ofNat 1) = some e ∧ e.state = .buildable ∧
      (empty.run lineOps).Assigned (.ofNat 1) e q' := by
  obtain ⟨q', ran⟩ : ∃ q', (empty.run lineOps).assign (.ofNat 1) = .ok q' := ⟨_, rfl⟩
  have linked : ((empty.run lineOps).orStay ((empty.run lineOps).assign (.ofNat 1))).linkOf
      (.ofNat 2) = some (.ofNat 2) := by decide
  rw [ran] at linked
  exact ⟨q', ran, linked, assign_hands_on ⟨lineOps, rfl⟩ ran⟩

end Queue

end Muster
