import Muster.Proofs.Links

/-!
# Items in line

Items run in the order in which they were enqueued, and those of one instant in the order of their
identifiers. A snapshot lists the items of a class in this order. An heir is found by a search of
its own, among the items as they are kept; `find?_arrange` says that both ways lead to the same
item.

An item is kept under its own identifier in every queue that operations have led to. So no item
stands in line twice, and a snapshot shows of each item what the queue holds of it.

**Main statements.** `find?_arrange`; `Filed.mem_snapshot` and `Filed.snapshot_inOrder`.
-/

namespace Muster

/-! ## The order of items -/

theorem Instant.lt_iff {a b : Instant} :
    a.lt b = true ↔ a.seconds < b.seconds ∨ a.seconds = b.seconds ∧ a.nanos < b.nanos := by
  simp [lt]

theorem Instant.ext_iff {a b : Instant} : a = b ↔ a.seconds = b.seconds ∧ a.nanos = b.nanos := by
  cases a
  cases b
  simp

namespace WorkItem

variable {a b c : WorkItem}

theorem before_iff : a.before b = true ↔ a.enqueuedAt.seconds < b.enqueuedAt.seconds ∨
    a.enqueuedAt.seconds = b.enqueuedAt.seconds ∧ (a.enqueuedAt.nanos < b.enqueuedAt.nanos ∨
      a.enqueuedAt.nanos = b.enqueuedAt.nanos ∧ a.id.toNat < b.id.toNat) := by
  simp only [before, Bool.or_eq_true, Bool.and_eq_true, beq_iff_eq, decide_eq_true_eq,
    Instant.lt_iff, Instant.ext_iff]
  omega

theorem before_asymm (h : a.before b = true) : b.before a = false := by
  refine Bool.eq_false_iff.2 fun h' => ?_
  rw [before_iff] at h h'
  omega

/-- Whoever else there is stands behind the first or in front of the last. -/
theorem before_or (h : a.before c = true) (b : WorkItem) :
    a.before b = true ∨ b.before c = true := by
  simp only [before_iff] at h ⊢
  omega

theorem before_total (other : a.id ≠ b.id) : a.before b = true ∨ b.before a = true := by
  have apart : a.id.toNat ≠ b.id.toNat := fun same => other (Id.ext_toNat same)
  simp only [before_iff]
  omega

end WorkItem

namespace Queue

/-! ## Lines -/

/-- Nobody comes before somebody who stands further ahead. -/
def InLine (l : List PendingItem) : Prop := l.Pairwise fun a b => b.item.before a.item = false

variable {p : PendingItem} {l : List PendingItem}

theorem InLine.place (h : InLine l) (p : PendingItem) : InLine (place p l) := by
  induction l with
  | nil => exact List.pairwise_singleton _ _
  | cons x rest ih =>
    obtain ⟨first, tail⟩ := List.pairwise_cons.1 h
    simp only [Queue.place]
    split
    · rename_i ahead
      refine List.pairwise_cons.2 ⟨fun y mem => ?_, ih tail⟩
      rcases mem_place.1 mem with rfl | mem
      · exact WorkItem.before_asymm ahead
      · exact first y mem
    · rename_i behind
      refine List.pairwise_cons.2 ⟨fun y mem => ?_, h⟩
      refine Bool.eq_false_iff.2 fun earlier => ?_
      rcases List.mem_cons.1 mem with rfl | mem
      · exact behind earlier
      · rcases WorkItem.before_or earlier x.item with wrong | wrong
        · rw [first y mem] at wrong
          cases wrong
        · exact behind wrong

theorem inLine_arrange (l : List PendingItem) : InLine (arrange l) := by
  induction l with
  | nil => exact List.Pairwise.nil
  | cons x rest ih => exact ih.place x

/-- Whoever joins the line is the first to pass a test if nobody ahead does. -/
theorem find?_place (inLine : InLine l) (test : PendingItem → Bool) :
    (place p l).find? test = if test p then
      some (match l.find? test with
        | none => p
        | some y => if y.item.before p.item then y else p)
    else l.find? test := by
  induction l with
  | nil => simp [place]
  | cons x rest ih =>
    obtain ⟨first, tail⟩ := List.pairwise_cons.1 inLine
    simp only [place]
    by_cases ahead : x.item.before p.item = true
    · rw [if_pos ahead, List.find?_cons, List.find?_cons]
      cases passes : test x with
      | true => simp [ahead]
      | false => exact ih tail
    · rw [if_neg ahead, List.find?_cons]
      cases passes : test p with
      | false => simp
      | true =>
        -- Everybody in the line stands behind `x`, so nobody comes before `p` either.
        have last : ∀ y ∈ x :: rest, y.item.before p.item = false := by
          intro y mem
          rcases List.mem_cons.1 mem with rfl | mem
          · exact Bool.eq_false_iff.2 ahead
          · refine Bool.eq_false_iff.2 fun earlier => ?_
            rcases WorkItem.before_or earlier x.item with wrong | wrong
            · rw [first y mem] at wrong
              cases wrong
            · exact ahead wrong
        cases found : (x :: rest).find? test with
        | none => simp
        | some y => simp [last y (List.mem_of_find?_eq_some found)]

/-- The first in line to pass a test is the one that a search among all who pass it finds. -/
theorem find?_arrange (f : QueuedItem → PendingItem) (item : ∀ e, (f e).item = e.item)
    (test : PendingItem → Bool) (l : List QueuedItem) :
    (arrange (l.map f)).find? test = (first? (l.filter fun e => test (f e))).map f := by
  induction l with
  | nil => rfl
  | cons x rest ih =>
    show (place (f x) (arrange (rest.map f))).find? test = _
    rw [find?_place (inLine_arrange _), ih]
    cases passes : test (f x) with
    | false => simp [passes]
    | true =>
      simp only [List.filter_cons, passes, if_true, first?]
      cases first? (rest.filter fun e => test (f e)) with
      | none => rfl
      | some e =>
        simp only [Option.map_some, item]
        split <;> rfl

/-! ## Items under their own identifiers -/

/-- Items are kept under their own identifiers. -/
def Filed (q : Queue) : Prop := ∀ id e, q.items.find? id = some e → e.item.id = id

variable {q q' : Queue} {id : WorkItemId} {e : QueuedItem} {r : ResourceClass}

namespace Filed

theorem insert (h : q.Filed) (items : q'.items = q.items.insert id e) (own : e.item.id = id) :
    q'.Filed := by
  intro id' e' found
  rw [items] at found
  rcases Table.find?_insert_cases found with ⟨rfl, rfl⟩ | ⟨-, old⟩
  · exact own
  · exact h id' e' old

theorem erase (h : q.Filed) (items : q'.items = q.items.erase id) : q'.Filed := by
  intro id' e' found
  rw [items] at found
  exact h id' e' (Table.find?_of_erase found).2

theorem mapValues (h : q.Filed) {f : WorkItemId → QueuedItem → QueuedItem}
    (items : q'.items = q.items.mapValues f) (item : ∀ id e, (f id e).item = e.item) :
    q'.Filed := by
  intro id' e' found
  rw [items, Table.find?_mapValues] at found
  obtain ⟨e, here, rfl⟩ := Option.map_eq_some_iff.1 found
  rw [item]
  exact h id' e here

theorem find?_iff (h : q.Filed) :
    q.items.find? id = some e ↔ e.item.id = id ∧ e ∈ q.items.values := by
  refine ⟨fun found => ⟨h id e found, Table.mem_values.2 ⟨id, found⟩⟩, ?_⟩
  rintro ⟨own, mem⟩
  obtain ⟨id', found⟩ := Table.mem_values.1 mem
  rw [← own, h id' e found]
  exact found

theorem ids_nodup (h : q.Filed) : (q.items.values.map (·.item.id)).Nodup := by
  have ids : q.items.values.map (·.item.id) = q.items.keys := by
    unfold Table.values Table.keys
    rw [List.map_map]
    exact List.map_congr_left fun x mem => h x.1 x.2 (Table.find?_eq_some_iff.2 mem)
  rw [ids]
  exact q.items.keys_nodup

theorem mem_buildable (h : q.Filed) : e ∈ q.buildable r ↔
    q.items.find? e.item.id = some e ∧ e.state = .buildable ∧ e.item.resource = r := by
  rw [buildable, List.mem_filter, h.find?_iff, Bool.and_eq_true, beq_iff_eq, beq_iff_eq]
  simp

/-- Who inherits a link can run, is of the class and has no link that counts. -/
theorem heir (h : q.Filed) (found : q.heir? r = some e) : e ∈ q.buildable r ∧
    q.items.find? e.item.id = some e ∧ q.live e.link = none := by
  obtain ⟨listed, free⟩ := List.mem_filter.1 (mem_first? found)
  exact ⟨listed, (h.mem_buildable.1 listed).1, Option.isNone_iff_eq_none.1 free⟩

/-- A link goes to the heir, if there is one. -/
theorem bequeath_eq (h : q.Filed) (p : PlannedId) : q.bequeath r p =
    match q.heir? r with
    | none => q
    | some e => { q with items := q.items.insert e.item.id { e with link := some p } } := by
  simp only [bequeath]
  cases found : q.heir? r with
  | none => rfl
  | some e => simp only [Table.modify_eq_insert (h.heir found).2.1]

theorem bequeath (h : q.Filed) (r : ResourceClass) (p : PlannedId) : (q.bequeath r p).Filed := by
  rw [h.bequeath_eq]
  cases q.heir? r with
  | none => exact h
  | some e => exact h.insert rfl rfl

theorem withBuildable (h : q.Filed) (id : WorkItemId) : (q.withBuildable id).Filed := by
  rcases q.withBuildable_items id with same | ⟨e, found, ready⟩
  · rw [same]
    exact h
  · rw [ready]
    exact h.insert rfl (h id e found)

theorem assign (h : q.Filed) (ran : q.assign id = .ok q') : q'.Filed := by
  obtain ⟨e, -, -, -, ⟨-, rfl⟩ | ⟨p, -, rfl⟩⟩ := assign_ok ran
  · exact h.erase rfl
  · exact Filed.bequeath (q := q.spend id e) (h.erase rfl) e.item.resource p

/-- No operation puts an item under a strange identifier. -/
theorem apply (h : q.Filed) (op : Op) : (op.apply q).Filed := by
  have done := op.does q
  generalize op.apply q = q' at done ⊢
  cases done with
  | submit item => exact h.insert rfl rfl
  | submitBuildable item =>
    exact Filed.withBuildable (q := q.submit item) (h.insert rfl rfl) item.id
  | makeBuildable id => exact h.withBuildable id
  | cancel gone =>
    rw [cancel_some gone]
    exact h.erase rfl
  | track tracked =>
    obtain ⟨e, found, rfl⟩ := track_ok tracked
    exact h.insert rfl (h _ e found)
  | recordPending planned => exact h
  | online landed =>
    refine h.mapValues (online_items landed) fun _ e => ?_
    split <;> rfl
  | assign ran => exact h.assign ran
  | refused => exact h

end Filed

/-! ## Queues that operations lead to -/

/-- Operations have led to the queue. -/
def Reached (q : Queue) : Prop := ∃ ops, q = empty.run ops

theorem Reached.filed (h : q.Reached) : q.Filed := by
  obtain ⟨ops, rfl⟩ := h
  exact run_keeps (P := Filed) (fun _ op _ filed => filed.apply op) nofun

theorem Reached.keyed (h : q.Reached) : PlannedCapacity.Keyed q.inFlight := by
  obtain ⟨ops, rfl⟩ := h
  exact run_keeps (P := fun q => PlannedCapacity.Keyed q.inFlight)
    (fun _ op _ => op.keyed_apply) nofun

/-! ## Capacity in flight -/

theorem mem_inFlightIds (keyed : PlannedCapacity.Keyed q.inFlight) {id : PlannedId} :
    id ∈ q.inFlightIds r ↔ ∃ p, q.inFlight.find? id = some p ∧ p.resource = r := by
  simp only [inFlightIds, inFlightOf, List.mem_map, List.mem_filter, beq_iff_eq, keyed.find?_iff]
  constructor
  · rintro ⟨p, ⟨mem, ofClass⟩, own⟩
    exact ⟨p, ⟨own, mem⟩, ofClass⟩
  · rintro ⟨p, ⟨own, mem⟩, ofClass⟩
    exact ⟨p, ⟨mem, ofClass⟩, own⟩

theorem inFlightIds_nodup (keyed : PlannedCapacity.Keyed q.inFlight) (r : ResourceClass) :
    (q.inFlightIds r).Nodup :=
  keyed.ids_nodup.sublist (List.filter_sublist.map _)

/-- Capacity in flight is in flight for some class. -/
theorem contains_inFlight (keyed : PlannedCapacity.Keyed q.inFlight) {p : PlannedId} :
    q.inFlight.contains p = true ↔ ∃ r, p ∈ q.inFlightIds r := by
  simp only [mem_inFlightIds keyed, Table.contains, Option.isSome_iff_exists]
  constructor
  · rintro ⟨c, flying⟩
    exact ⟨c.resource, c, flying, rfl⟩
  · rintro ⟨_, c, flying, -⟩
    exact ⟨c, flying⟩

/-! ## Snapshots -/

/-- A snapshot does not depend on other classes and on items that cannot run. -/
theorem snapshot_congr (inFlight : q'.inFlight = q.inFlight)
    (idle : q'.availableOf r = q.availableOf r)
    (items : ∀ id e, e.state = .buildable → e.item.resource = r →
      (q'.items.find? id = some e ↔ q.items.find? id = some e)) :
    q'.snapshot r = q.snapshot r := by
  have listed : q'.buildable r = q.buildable r := by
    refine Table.filter_values_congr fun id e test => ?_
    rw [Bool.and_eq_true, beq_iff_eq, beq_iff_eq] at test
    exact items id e test.1 test.2
  simp only [snapshot, inFlightOf, live, listed, inFlight, idle]

namespace Filed

/-- A snapshot shows the items of the class that can run, with the links that count. -/
theorem mem_snapshot (h : q.Filed) {x : PendingItem} : x ∈ (q.snapshot r).items ↔
    ∃ e, q.items.find? x.item.id = some e ∧ e.state = .buildable ∧ e.item.resource = r ∧
      x = ⟨e.item, q.live e.link⟩ := by
  refine mem_arrange.trans (List.mem_map.trans ⟨?_, ?_⟩)
  · rintro ⟨e, listed, rfl⟩
    obtain ⟨found, ready, resource⟩ := h.mem_buildable.1 listed
    exact ⟨e, found, ready, resource, rfl⟩
  · rintro ⟨e, found, ready, resource, rfl⟩
    exact ⟨e, h.mem_buildable.2 ⟨found, ready, resource⟩, rfl⟩

theorem snapshot_nodup (h : q.Filed) (r : ResourceClass) :
    ((q.snapshot r).items.map (·.item.id)).Nodup := by
  refine ((arrange_perm _).map _).nodup_iff.2 ?_
  rw [List.map_map]
  exact h.ids_nodup.sublist (List.filter_sublist.map _)

/-- The items of a snapshot are in order. -/
theorem snapshot_inOrder (h : q.Filed) (r : ResourceClass) :
    (q.snapshot r).items.Pairwise fun a b => a.item.before b.item = true := by
  have inLine : InLine (q.snapshot r).items := inLine_arrange _
  have apart := List.pairwise_map.1 (h.snapshot_nodup r)
  refine (inLine.and apart).imp ?_
  rintro a b ⟨notBefore, other⟩
  rcases WorkItem.before_total other with before | wrong
  · exact before
  · rw [notBefore] at wrong
    cases wrong

end Filed

end Queue

end Muster
