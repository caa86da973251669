import Muster.Proofs.Precedence

/-!
# Snapshots divide the work

A periodic review covers the classes that are pending, and a review of a class covers what the
snapshot of the class shows. An item that neither of them mentions would wait for ever, and one that
two snapshots show would count twice.

Both views go through the items as they are kept. They are exact because each item is kept under
its own identifier, in whatever order items were replaced, ran and were cancelled.

**Main statement.** `Queue.snapshots_divide`.
-/

namespace Muster

namespace Queue

variable {q : Queue} {id : WorkItemId} {e : QueuedItem} {r : ResourceClass}

/-! ## Pending classes -/

theorem mem_pendingClasses : r ∈ q.pendingClasses ↔
    ∃ e ∈ q.items.values, e.state = .buildable ∧ e.item.resource = r := by
  refine (Table.mem_keys_foldl_insert _ _ _ ∅).trans ?_
  have none : r ∉ (∅ : Table ResourceClass Unit).keys := List.not_mem_nil
  simp only [none, false_or, List.mem_filter, beq_iff_eq, and_assoc]

/-- The classes that are pending are those whose snapshots have items. -/
theorem mem_pendingClasses_iff : r ∈ q.pendingClasses ↔ (q.snapshot r).items ≠ [] := by
  have listed : ∀ e, e ∈ q.buildable r ↔
      e ∈ q.items.values ∧ e.state = .buildable ∧ e.item.resource = r := fun e => by
    rw [buildable, List.mem_filter, Bool.and_eq_true, beq_iff_eq, beq_iff_eq]
  rw [mem_pendingClasses]
  constructor
  · rintro ⟨e, mem, able⟩
    exact List.ne_nil_of_mem (mem_arrange.2 (List.mem_map_of_mem ((listed e).2 ⟨mem, able⟩)))
  · intro nonempty
    obtain ⟨x, shown⟩ := List.exists_mem_of_ne_nil _ nonempty
    obtain ⟨e, mem, -⟩ := List.mem_map.1 (mem_arrange.1 shown)
    exact ⟨e, (listed e).1 mem⟩

/-! ## Items in snapshots -/

/-- The only element of its key. -/
theorem filter_key_eq {α κ : Type} [DecidableEq κ] (key : α → κ) {l : List α}
    (once : (l.map key).Nodup) {x : α} (mem : x ∈ l) : l.filter (fun y => key y = key x) = [x] := by
  induction l with
  | nil => cases mem
  | cons y l ih =>
    obtain ⟨first, rest⟩ := List.nodup_cons.1 once
    rcases List.mem_cons.1 mem with rfl | mem
    · have none : l.filter (fun y => key y = key x) = [] := by
        refine List.filter_eq_nil_iff.2 fun z later same => first ?_
        exact of_decide_eq_true same ▸ List.mem_map_of_mem later
      rw [List.filter_cons_of_pos (by simp), none]
    · have other : key y ≠ key x := fun same => first (same ▸ List.mem_map_of_mem mem)
      rw [List.filter_cons_of_neg (by simpa using other), ih rest mem]

namespace Filed

/-- An item that can run is shown once, in the snapshot of its class. -/
theorem filter_snapshot (h : q.Filed) (found : q.items.find? id = some e)
    (ready : e.state = .buildable) (r : ResourceClass) :
    (q.snapshot r).items.filter (·.item.id = id) =
      if r = e.item.resource then [⟨e.item, q.live e.link⟩] else [] := by
  obtain rfl := h id e found
  by_cases own : r = e.item.resource
  · have shown : ⟨e.item, q.live e.link⟩ ∈ (q.snapshot r).items :=
      h.mem_snapshot.2 ⟨e, found, ready, own.symm, rfl⟩
    rw [if_pos own]
    exact filter_key_eq (·.item.id) (h.snapshot_nodup r) shown
  · rw [if_neg own]
    refine List.filter_eq_nil_iff.2 fun x mem same => own ?_
    obtain ⟨e', found', -, ofClass, -⟩ := h.mem_snapshot.1 mem
    rw [of_decide_eq_true same] at found'
    cases found.symm.trans found'
    exact ofClass.symm

/-- What a snapshot shows as planned for an item is its link, if that counts. -/
theorem planned_eq (h : q.Filed) {x : PendingItem} (mem : x ∈ (q.snapshot r).items) :
    x.planned = q.live (q.linkOf x.item.id) := by
  obtain ⟨e, found, -, -, same⟩ := h.mem_snapshot.1 mem
  rw [linkOf_of_find? found, same]

end Filed

/-! ## All snapshots together -/

/-- The snapshots of all classes divide the items that can run among them. -/
structure Divided (q : Queue) : Prop where
  ascending : q.pendingClasses.Pairwise fun r r' => compare r r' = .lt
  pending : ∀ r, r ∈ q.pendingClasses ↔ (q.snapshot r).items ≠ []
  /-- An item that can run is shown once, in the snapshot of its class. -/
  once : ∀ id e, q.items.find? id = some e → e.state = .buildable →
    e.item.id = id ∧ ∀ r, (q.snapshot r).items.filter (·.item.id = id) =
      if r = e.item.resource then [⟨e.item, q.live e.link⟩] else []
  /-- An item that waits or is not there is not shown. -/
  others : ∀ id, q.stateOf id ≠ some .buildable →
    ∀ r, ∀ x ∈ (q.snapshot r).items, x.item.id ≠ id
  inOrder : ∀ r, (q.snapshot r).items.Pairwise fun a b => a.item.before b.item = true
  /-- Capacity is planned for an item if the item is linked to it and it is in flight. -/
  planned : ∀ r, ∀ x ∈ (q.snapshot r).items, ∀ p,
    x.planned = some p ↔ q.linkOf x.item.id = some p ∧ ∃ r', p ∈ q.inFlightIds r'

/-- Whatever operations there were: the snapshots of the pending classes show each item that can run
just once, in the snapshot of its class, in the order in which the items will run, and each with the
capacity in flight that it is linked to. -/
theorem snapshots_divide (ops : List Op) : (empty.run ops).Divided := by
  have reached : (empty.run ops).Reached := ⟨ops, rfl⟩
  have filed := reached.filed
  constructor
  case ascending => exact Table.keys_ascending _
  case pending => exact fun r => mem_pendingClasses_iff
  case once =>
    intro id e found ready
    exact ⟨filed id e found, filed.filter_snapshot found ready⟩
  case others =>
    rintro id idle r x mem rfl
    obtain ⟨e, found, ready, -⟩ := filed.mem_snapshot.1 mem
    refine idle ?_
    rw [stateOf, found, Option.map_some, ready]
  case inOrder => exact filed.snapshot_inOrder
  case planned =>
    intro r x mem p
    rw [filed.planned_eq mem, live, Option.filter_eq_some_iff, contains_inFlight reached.keyed]

end Queue

end Muster
