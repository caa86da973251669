import Muster.Proofs.Coverage
import Muster.Proofs.InFlight

/-!
# Units are conserved

Each unit that is put in flight is in flight until its capacity comes online, then idle, and gone
once an item has run on it. No operation of the queue makes or loses a unit otherwise, whether it
succeeds or fails.

Sums of counts are exact as long as they fit. Two kinds of sums are made: capacity that comes online
is added to what is idle, and views add up what is in flight.

**Main statement.** `Queue.units_conserved`: what was put in flight is in flight, idle or was run
on; and providers have as much in flight as classes.
-/

namespace Muster

open PlannedCapacity (Keyed store mem_store unitsIf)

theorem PlannedCapacity.sum_unitsIf (test : PlannedCapacity → Bool)
    (planned : List PlannedCapacity) :
    (planned.map (unitsIf test)).sum = Count.exactSum ((planned.filter test).map (·.units)) := by
  induction planned with
  | nil => rfl
  | cons p planned ih =>
    by_cases h : test p = true <;> simp [unitsIf, h, ih, Count.exactSum]

namespace Queue

/-! ## Views of the capacity in flight -/

/-- The sums over the capacity in flight fit. -/
structure Fits (q : Queue) : Prop where
  byClass : ∀ r, Count.exactSum ((q.inFlightOf r).map (·.units)) < 4294967296
  byProvider : ∀ p, Count.exactSum
    ((q.inFlight.values.filter (·.provider == p)).map (·.units)) < 4294967296

theorem exactSum_filter_le (test : PlannedCapacity → Bool) (planned : List PlannedCapacity) :
    Count.exactSum ((planned.filter test).map (·.units)) ≤
      Count.exactSum (planned.map (·.units)) := by
  induction planned with
  | nil => simp
  | cons p planned ih =>
    by_cases h : test p = true <;> simp [h, Count.exactSum] <;> omega

/-- The sums fit if everything in flight does. -/
theorem Fits.of_total {q : Queue}
    (h : Count.exactSum (q.inFlight.values.map (·.units)) < 4294967296) : q.Fits :=
  ⟨fun _ => Nat.lt_of_le_of_lt (exactSum_filter_le _ _) h,
    fun _ => Nat.lt_of_le_of_lt (exactSum_filter_le _ _) h⟩

/-- Capacity is added to what its provider has. -/
def addTo (t : Table ProviderId Count) (p : PlannedCapacity) : Table ProviderId Count :=
  t.insert p.provider (t.findD p.provider 0 + p.units)

theorem findD_addTo (t : Table ProviderId Count) (x : PlannedCapacity) (p : ProviderId) :
    (addTo t x).findD p 0 = if x.provider = p then t.findD p 0 + x.units else t.findD p 0 := by
  simp only [addTo, Table.findD, Table.find?_insert]
  by_cases e : x.provider = p
  · simp [e]
  · simp [e, Ne.symm e]

theorem findD_foldl_addTo (l : List PlannedCapacity) (t : Table ProviderId Count) (p : ProviderId) :
    (l.foldl addTo t).findD p 0 =
      ((l.filter (·.provider == p)).map (·.units)).foldl (· + ·) (t.findD p 0) := by
  induction l generalizing t with
  | nil => rfl
  | cons x l ih =>
    rw [List.foldl_cons, ih, findD_addTo]
    by_cases e : x.provider = p <;> simp [e]

/-- What a provider has in flight. -/
theorem findD_inFlightByProvider (q : Queue) (p : ProviderId) : q.inFlightByProvider.findD p 0 =
    Count.total ((q.inFlight.values.filter (·.provider == p)).map (·.units)) :=
  findD_foldl_addTo q.inFlight.values ∅ p

/-- Every unit in flight is counted for one provider. -/
theorem Fits.sum_inFlightByProvider {q : Queue} (h : q.Fits) :
    (q.inFlightByProvider.values.map UInt32.toNat).sum =
      Count.exactSum (q.inFlight.values.map (·.units)) := by
  have counted : ∀ p, (q.inFlightByProvider.findD p 0).toNat =
      Count.exactSum ((q.inFlight.values.filter (·.provider == p)).map (·.units)) := by
    intro p
    rw [findD_inFlightByProvider, Count.toNat_total_of_lt (h.byProvider p)]
  rw [Table.values_eq_map_keys _ 0, List.map_map]
  simp only [Function.comp_def, counted]
  refine Count.exactSum_by_key (Table.keys_nodup _) PlannedCapacity.provider
    PlannedCapacity.units ?_
  intro x mem
  exact (Table.mem_keys_foldl_insert _ _ q.inFlight.values ∅).2 (.inr ⟨x, mem, rfl⟩)

/-- Every unit in flight is counted for one class. -/
theorem Fits.sum_snapshots {q : Queue} (h : q.Fits) {classes : List ResourceClass}
    (once : classes.Nodup) (all : ∀ p ∈ q.inFlight.values, p.resource ∈ classes) :
    (classes.map fun r => (q.snapshot r).inFlight.toNat).sum =
      Count.exactSum (q.inFlight.values.map (·.units)) := by
  have counted : ∀ r, (q.snapshot r).inFlight.toNat =
      Count.exactSum ((q.inFlight.values.filter (·.resource == r)).map (·.units)) :=
    fun r => Count.toNat_total_of_lt (h.byClass r)
  simp only [counted]
  exact Count.exactSum_by_key once PlannedCapacity.resource PlannedCapacity.units all

/-! ## Operations -/

/-- The capacity that an operation puts in flight. -/
def Op.records : Op → List PlannedCapacity
  | recordPending planned => planned
  | _ => []

/-- The class of the item that an operation runs, if it runs one. -/
def Op.runs? (q : Queue) : Op → Option ResourceClass
  | assign id =>
    match q.assign id with
    | .ok _ => (q.items.find? id).map (·.item.resource)
    | .error _ => none
  | _ => none

/-- The sum that an operation makes fits. -/
def Op.Fits (q : Queue) : Op → Prop
  | online id => ∀ p ∈ q.inFlight.find? id, (q.availableOf p.resource).toNat +
      p.units.toNat < 4294967296
  | _ => True

variable {q q' : Queue}

theorem Spends.capacity_eq {r' : ResourceClass} (h : q.Spends r' q') (r : ResourceClass) :
    q.capacity r = q'.capacity r + if r' = r then 1 else 0 := by
  rw [Queue.capacity_eq, Queue.capacity_eq, h.inFlight]
  by_cases e : r' = r
  · subst e
    rw [if_pos rfl, ← h.idle_eq]
    exact Nat.add_right_comm _ _ _
  · rw [if_neg e, h.availableOf_eq (Ne.symm e)]
    rfl

theorem Lands.capacity_eq {p : PlannedCapacity} {id : PlannedId} (h : q.Lands p id q')
    (fits : (q.availableOf p.resource).toNat + p.units.toNat < 4294967296) (r : ResourceClass) :
    q.capacity r = q'.capacity r := by
  rw [Queue.capacity_eq, Queue.capacity_eq, h.inFlight, availableOf_insert h.available,
    Table.sumOf_of_find? h.flying]
  by_cases e : r = p.resource
  · subst e
    have exact : (q.availableOf p.resource + p.units).toNat =
        (q.availableOf p.resource).toNat + p.units.toNat := by
      rw [UInt32.toNat_add]
      omega
    simp only [unitsIf, beq_self_eq_true, if_true, exact]
    omega
  · have other : (p.resource == r) = false := beq_false_of_ne (Ne.symm e)
    simp [unitsIf, other, e, availableOf]

/-- Capacity with new identifiers adds all its units. -/
theorem recordPending_capacity {planned : List PlannedCapacity} (keyed : Keyed q.inFlight)
    (once : (planned.map (·.id)).Nodup) (new : ∀ p ∈ q.inFlight.values, p.id ∉ planned.map (·.id))
    (r : ResourceClass) : (q.recordPending planned).capacity r =
      q.capacity r + Count.exactSum ((planned.filter (·.resource == r)).map (·.units)) := by
  have apart : (planned.map (·.id) ++ q.inFlight.values.map (·.id)).Nodup := by
    refine List.nodup_append.2 ⟨once, keyed.ids_nodup, ?_⟩
    rintro id mem _ mem' rfl
    obtain ⟨p, old, rfl⟩ := List.mem_map.1 mem'
    exact new p old mem
  have stored := keyed.store_perm apart
  have sum := ((stored.map (unitsIf (·.resource == r))).sum_nat)
  simp only [List.map_append, List.sum_append, PlannedCapacity.sum_unitsIf] at sum
  show (q.availableOf r).toNat +
    Count.exactSum (((store planned q.inFlight).values.filter (·.resource == r)).map (·.units)) = _
  rw [sum, capacity, inFlightOf]
  omega

theorem withBuildable_same (q : Queue) (id : WorkItemId) : q.SameCapacity (q.withBuildable id) := by
  simp only [withBuildable]
  cases h : q.makeBuildable id with
  | error e => exact .refl q
  | ok x => exact makeBuildable_same h

namespace Op

/-- What becomes of the capacity in flight. -/
theorem inFlight_apply (op : Op) (q : Queue) :
    (op.apply q).inFlight = store op.records q.inFlight ∨
      ∃ id, (op.apply q).inFlight = q.inFlight.erase id := by
  have done := op.does q
  generalize op.apply q = q' at done ⊢
  cases done with
  | submit item | recordPending planned => exact .inl rfl
  | submitBuildable item => exact .inl ((q.submit item).withBuildable_same item.id).inFlight
  | makeBuildable id => exact .inl (q.withBuildable_same id).inFlight
  | cancel gone => exact .inl (cancel_same gone).inFlight
  | track tracked => exact .inl (track_same tracked).inFlight
  | online landed =>
    obtain ⟨p, lands⟩ := online_lands landed
    exact .inr ⟨_, lands.inFlight⟩
  | assign ran =>
    obtain ⟨e, -, spends⟩ := assign_spends ran
    exact .inl spends.inFlight
  | refused no =>
    cases op with
    | cancel | track | online | assign => exact .inl rfl
    | _ => exact no.elim

theorem keyed_apply (op : Op) (h : Keyed q.inFlight) : Keyed (op.apply q).inFlight := by
  rcases op.inFlight_apply q with e | ⟨id, e⟩
  · rw [e]
    exact h.store op.records
  · rw [e]
    exact h.erase id

/-- Capacity in flight was in flight before or is put there. -/
theorem mem_inFlight_apply {op : Op} {p : PlannedCapacity} (h : p ∈ (op.apply q).inFlight.values) :
    p ∈ op.records ∨ p ∈ q.inFlight.values := by
  rcases op.inFlight_apply q with e | ⟨id, e⟩
  · rw [e] at h
    exact mem_store h
  · rw [e] at h
    obtain ⟨id', found⟩ := Table.mem_values.1 h
    exact .inr (Table.mem_values.2 ⟨id', (Table.find?_of_erase found).2⟩)

/-- No operation makes or loses units. -/
theorem capacity_apply (op : Op) (keyed : Keyed q.inFlight) (once : (op.records.map (·.id)).Nodup)
    (new : ∀ p ∈ q.inFlight.values, p.id ∉ op.records.map (·.id)) (fits : op.Fits q)
    (r : ResourceClass) :
    q.capacity r + Count.exactSum ((op.records.filter (·.resource == r)).map (·.units)) =
      (op.apply q).capacity r + if op.runs? q = some r then 1 else 0 := by
  have still : ∀ {q'}, q.SameCapacity q' → q.capacity r + 0 = q'.capacity r + 0 :=
    fun same => (same.capacity_eq r).symm
  have done := op.does q
  generalize op.apply q = q' at done ⊢
  cases done with
  | submit item => exact still ⟨rfl, rfl⟩
  | submitBuildable item =>
    have same := (q.submit item).withBuildable_same item.id
    exact still ⟨same.inFlight, same.available⟩
  | makeBuildable id => exact still (q.withBuildable_same id)
  | cancel gone => exact still (cancel_same gone)
  | track tracked => exact still (track_same tracked)
  | recordPending planned => exact (recordPending_capacity keyed once new r).symm
  | online landed =>
    obtain ⟨p, lands⟩ := online_lands landed
    exact lands.capacity_eq (fits p lands.flying) r
  | assign ran =>
    obtain ⟨e, found, spends⟩ := assign_spends ran
    simpa [runs?, records, ran, found, Count.exactSum] using spends.capacity_eq r
  | refused no =>
    cases op with
    | cancel | track | online => exact still (.refl q)
    | assign id =>
      obtain ⟨e, failed⟩ := no
      simp [runs?, records, failed, Count.exactSum]
    | _ => exact no.elim

end Op

/-! ## Runs of operations -/

/-- The capacity that operations put in flight, in that order. -/
def recorded (ops : List Op) : List PlannedCapacity := ops.flatMap Op.records

/-- How many items of a class operations run. -/
def ran (r : ResourceClass) : Queue → List Op → Nat
  | _, [] => 0
  | q, op :: ops => (if op.runs? q = some r then 1 else 0) + ran r (op.apply q) ops

/-- No sum on the way is too large, and none over what is in flight in the end. -/
def SumsFit : Queue → List Op → Prop
  | q, [] => q.Fits
  | q, op :: ops => op.Fits q ∧ SumsFit (op.apply q) ops

theorem SumsFit.last {ops : List Op} (h : SumsFit q ops) : (q.run ops).Fits := by
  induction ops generalizing q with
  | nil => exact h
  | cons op ops ih => exact ih h.2

/-- Operations that put no capacity in flight twice make and lose no units. -/
theorem run_capacity {ops : List Op} (keyed : Keyed q.inFlight)
    (once : ((recorded ops).map (·.id)).Nodup)
    (new : ∀ p ∈ q.inFlight.values, p.id ∉ (recorded ops).map (·.id)) (fits : SumsFit q ops)
    (r : ResourceClass) :
    q.capacity r + Count.exactSum (((recorded ops).filter (·.resource == r)).map (·.units)) =
      (q.run ops).capacity r + ran r q ops := by
  induction ops generalizing q with
  | nil => rfl
  | cons op ops ih =>
    have split : recorded (op :: ops) = op.records ++ recorded ops := List.flatMap_cons
    simp only [split, List.map_append, List.nodup_append] at once
    simp only [split, List.map_append, List.mem_append, not_or] at new
    obtain ⟨first, rest, apart⟩ := once
    have later : ∀ p ∈ (op.apply q).inFlight.values, p.id ∉ (recorded ops).map (·.id) := by
      intro p mem again
      rcases Op.mem_inFlight_apply mem with here | before
      · exact apart p.id (List.mem_map_of_mem here) p.id again rfl
      · exact (new p before).2 again
    have here := op.capacity_apply keyed first (fun p mem => (new p mem).1) fits.1 r
    have onward := ih (op.keyed_apply keyed) rest later fits.2
    simp only [split, List.filter_append, List.map_append, Count.exactSum_append, ran, run_cons]
    omega

/-- In whatever order the operations come, and whether they succeed or fail: the units of a class
that were put in flight are in flight or idle or an item has run on them, and the providers
together have as many units in flight as the classes together. -/
theorem units_conserved (ops : List Op) (once : ((recorded ops).map (·.id)).Nodup)
    (fits : SumsFit .empty ops) :
    (∀ r, Count.exactSum (((recorded ops).filter (·.resource == r)).map (·.units)) =
      ((empty.run ops).snapshot r).inFlight.toNat + ((empty.run ops).snapshot r).available.toNat +
        ran r .empty ops) ∧
    ∀ classes : List ResourceClass, classes.Nodup →
      (∀ p ∈ (empty.run ops).inFlight.values, p.resource ∈ classes) →
      ((empty.run ops).inFlightByProvider.values.map UInt32.toNat).sum =
        (classes.map fun r => ((empty.run ops).snapshot r).inFlight.toNat).sum := by
  have exact := fits.last
  constructor
  · intro r
    have conserved := run_capacity (q := .empty) (fun _ _ found => nomatch found) once
      (fun _ mem => nomatch mem) fits r
    have flying : ((empty.run ops).snapshot r).inFlight.toNat =
        Count.exactSum (((empty.run ops).inFlightOf r).map (·.units)) :=
      Count.toNat_total_of_lt (exact.byClass r)
    have nothing : capacity .empty r = 0 := rfl
    rw [nothing, capacity, ← flying] at conserved
    show _ = _ + ((empty.run ops).availableOf r).toNat + _
    omega
  · intro classes nodup all
    rw [exact.sum_inFlightByProvider, exact.sum_snapshots nodup all]

/-- Capacity of two units comes online, capacity of three does not, and one item runs. -/
def sampleOps : List Op := [
  .submitBuildable (Sample.item 1),
  .recordPending [⟨.ofNat 1, .ofNat 1, .unlabeled, 2⟩, ⟨.ofNat 2, .ofNat 2, .unlabeled, 3⟩],
  .online (.ofNat 1), .assign (.ofNat 1), .assign (.ofNat 1)]

/-- Of the five units, three are in flight and one is idle, and one has run the item. -/
theorem conserved_of_sampleOps : ((recorded sampleOps).map (·.id)).Nodup ∧
    SumsFit .empty sampleOps ∧ ran .unlabeled .empty sampleOps = 1 ∧
    Count.exactSum (((recorded sampleOps).filter (·.resource == .unlabeled)).map (·.units)) =
      ((empty.run sampleOps).snapshot .unlabeled).inFlight.toNat +
        ((empty.run sampleOps).snapshot .unlabeled).available.toNat + 1 := by
  have once : ((recorded sampleOps).map (·.id)).Nodup := by decide
  have fits : SumsFit .empty sampleOps := by
    refine ⟨trivial, trivial, ?_, trivial, trivial, .of_total (by decide)⟩
    show ∀ p ∈ Table.find? _ _, _
    decide
  have one : ran .unlabeled .empty sampleOps = 1 := by decide
  have conserved := (units_conserved sampleOps once fits).1 .unlabeled
  rw [one] at conserved
  exact ⟨once, fits, one, conserved⟩

end Queue

end Muster
