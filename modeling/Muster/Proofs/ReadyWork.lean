import Muster.Proofs.Bare
import Muster.Proofs.Heirs

/-!
# Running ready work

Ready work is run in two passes. The first one brings all capacity of a class online and gives it
back to the limiter; the second one runs the items in line until a unit is missing. Both go by lists
that were made before, while links are dropped by the one and handed on by the other.

Links decide neither who runs nor what is idle. So the first in line run, as many as there are units
idle and in flight, and the order in which the capacity comes online does not matter.

**Main statements.** `retires` and `assignAll_runs`, the two passes; `ready_work_drains`.
-/

namespace Muster

/-- Gone after the second step is what the first step or the second one takes. -/
theorem ite_mem_append {α β : Type} [DecidableEq α] (a : α) (first second : List α)
    (b : Option β) : (if a ∈ second then none else if a ∈ first then none else b) =
      if a ∈ first ++ second then none else b := by
  rw [← ite_or]
  exact if_congr (or_comm.trans List.mem_append.symm) rfl rfl

namespace QueuedItem

/-- An item without its link, if that is to one of the capacities. -/
def unlink (e : QueuedItem) (gone : List PlannedId) : QueuedItem :=
  { e with link := e.link.filter (· ∉ gone) }

theorem unlink_nil (e : QueuedItem) : e.unlink [] = e := by
  obtain ⟨item, state, link⟩ := e
  cases link <;> rfl

theorem unlink_unlink (e : QueuedItem) (gone gone' : List PlannedId) :
    (e.unlink gone).unlink gone' = e.unlink (gone ++ gone') := by
  simp only [unlink, Option.filter_filter, List.mem_append, not_or, Bool.decide_and]

theorem unlink_comm (e : QueuedItem) (gone gone' : List PlannedId) :
    (e.unlink gone).unlink gone' = (e.unlink gone').unlink gone := by
  rw [unlink_unlink, unlink_unlink]
  simp only [unlink, List.mem_append, or_comm]

/-- The link to a single capacity is dropped. -/
theorem unlink_singleton (e : QueuedItem) (id : PlannedId) :
    e.unlink [id] = if e.link = some id then { e with link := none } else e := by
  obtain ⟨item, state, link⟩ := e
  cases link with
  | none => rfl
  | some p => by_cases same : p = id <;> simp [unlink, Option.filter_some, same]

end QueuedItem

namespace Queue

variable {q q' q'' : Queue} {r : ResourceClass} {id : WorkItemId} {e : QueuedItem}

/-! ## Items that run -/

/-- Items of a class have run. The links of the class are left open. -/
structure Runs (r : ResourceClass) (ids : List WorkItemId) (q q' : Queue) : Prop where
  items : ∀ id, q'.bare.items.find? id = if id ∈ ids then none else q.bare.items.find? id
  elsewhere : ∀ id e, e.item.resource ≠ r →
    (q'.items.find? id = some e ↔ q.items.find? id = some e)
  inFlight : q'.inFlight = q.inFlight
  idle : (q'.availableOf r).toNat + ids.length = (q.availableOf r).toNat
  others : ∀ r', r' ≠ r → q'.availableOf r' = q.availableOf r'

namespace Runs

theorem refl (r : ResourceClass) (q : Queue) : q.Runs r [] q :=
  ⟨fun _ => rfl, fun _ _ _ => .rfl, rfl, rfl, fun _ _ => rfl⟩

theorem trans {ids ids' : List WorkItemId} (h : q.Runs r ids q') (h' : q'.Runs r ids' q'') :
    q.Runs r (ids ++ ids') q'' := by
  constructor
  case items =>
    intro id
    rw [h'.items, h.items, ite_mem_append]
  case elsewhere => exact fun id e other => (h'.elsewhere id e other).trans (h.elsewhere id e other)
  case inFlight => exact h'.inFlight.trans h.inFlight
  case idle =>
    have first := h.idle
    have second := h'.idle
    rw [List.length_append]
    omega
  case others => exact fun r' other => (h'.others r' other).trans (h.others r' other)

/-- Without links, an item that runs just leaves. -/
theorem bare_items (ran : q.assign id = .ok q') : q'.bare.items = q.bare.items.erase id := by
  have bare : q.bare.assign id = .ok q'.bare := by
    rw [assign_bare, ran]
    rfl
  obtain ⟨e, found, -, -, ⟨-, same⟩ | ⟨p, live, -⟩⟩ := assign_ok bare
  · rw [same]
    rfl
  · rw [find?_bare] at found
    obtain ⟨x, -, rfl⟩ := Option.map_eq_some_iff.1 found
    cases live

theorem of_assign (filed : q.Filed) (found : q.items.find? id = some e)
    (ran : q.assign id = .ok q') : q.Runs e.item.resource [id] q' := by
  obtain ⟨e', found', -, assigned⟩ := Assigned.of_assign filed ran
  cases found.symm.trans found'
  constructor
  case items =>
    intro id'
    rw [bare_items ran, Table.find?_erase]
    simp only [List.mem_singleton]
  case elsewhere => exact fun id' x other => assigned.elsewhere id' x (.inl other)
  case inFlight => exact assigned.inFlight
  case idle => exact assigned.idle
  case others => exact fun r' other => congrArg Snapshot.available (assigned.others r' other)

end Runs

/-- An item can run, if there is an idle unit for it. -/
theorem assign_of_idle (found : q.items.find? id = some e) (ready : e.state = .buildable)
    (idle : q.availableOf e.item.resource ≠ 0) : ∃ q', q.assign id = .ok q' := by
  simp only [assign, found, ready, ne_eq, not_true, if_false, if_neg idle]
  split <;> exact ⟨_, rfl⟩

theorem assign_of_none_idle (found : q.items.find? id = some e) (ready : e.state = .buildable)
    (idle : q.availableOf e.item.resource = 0) :
    q.assign id = .error (.noCapacity e.item.resource) := by
  simp only [assign, found, ready, ne_eq, not_true, if_false, if_pos idle]

/-- The item can run and is of the class. -/
def Ready (q : Queue) (r : ResourceClass) (id : WorkItemId) : Prop :=
  ∃ e, q.items.find? id = some e ∧ e.state = .buildable ∧ e.item.resource = r

/-- Whoever stands in line is ready. -/
theorem Filed.ready (filed : q.Filed) (mem : id ∈ (q.snapshot r).items.map (·.item.id)) :
    q.Ready r id := by
  obtain ⟨x, shown, rfl⟩ := List.mem_map.1 mem
  obtain ⟨e, found, ready, ofClass, -⟩ := filed.mem_snapshot.1 shown
  exact ⟨e, found, ready, ofClass⟩

/-- Whoever has not run is still ready. -/
theorem Runs.ready {ids : List WorkItemId} (h : q.Runs r ids q') (ready : q.Ready r id)
    (not : id ∉ ids) : q'.Ready r id := by
  obtain ⟨e, found, able, ofClass⟩ := ready
  have same := h.items id
  rw [if_neg not, find?_bare, find?_bare, found] at same
  obtain ⟨e', found', bare⟩ := Option.map_eq_some_iff.1 same
  exact ⟨e', found', (congrArg (·.state) bare).trans able,
    (congrArg (·.item.resource) bare).trans ofClass⟩

end Queue

namespace Site

variable {L : Type} {r : ResourceClass}

/-- Items that run change the queue only. -/
theorem assignAll_frame (ids : List WorkItemId) (s : Site L) :
    ∃ queue, assignAll ids s = { s with queue } := by
  induction ids generalizing s with
  | nil => exact ⟨_, rfl⟩
  | cons id ids ih =>
    simp only [assignAll, assign]
    cases s.queue.assign id with
    | error e => exact ⟨_, rfl⟩
    | ok q => exact ih { s with queue := q }

/-- Of items that are ready, the first run, as many as there are idle units. -/
theorem assignAll_runs {ids : List WorkItemId} (s : Site L) (filed : s.queue.Filed)
    (once : ids.Nodup) (ready : ∀ id ∈ ids, s.queue.Ready r id) :
    s.queue.Runs r (ids.take (s.queue.availableOf r).toNat) (assignAll ids s).queue := by
  induction ids generalizing s with
  | nil =>
    rw [List.take_nil]
    exact .refl r s.queue
  | cons id rest ih =>
    obtain ⟨first, once⟩ := List.nodup_cons.1 once
    obtain ⟨e, found, able, rfl⟩ := ready id List.mem_cons_self
    simp only [assignAll, assign]
    by_cases idle : s.queue.availableOf e.item.resource = 0
    · rw [Queue.assign_of_none_idle found able idle, idle]
      exact .refl _ s.queue
    · obtain ⟨q, ran⟩ := Queue.assign_of_idle found able idle
      rw [ran]
      have one := Queue.Runs.of_assign filed found ran
      have units : (s.queue.availableOf e.item.resource).toNat =
          (q.availableOf e.item.resource).toNat + 1 := one.idle.symm
      rw [units, List.take_succ_cons]
      refine one.trans (ih { s with queue := q } (filed.assign ran) once ?_)
      intro id' mem
      refine one.ready (ready id' (List.mem_cons_of_mem _ mem)) fun same => ?_
      exact first (List.mem_singleton.1 same ▸ mem)

end Site

/-! ## Capacity that comes online -/

namespace Queue

variable {q : Queue} {r : ResourceClass} {id : PlannedId} {p : PlannedCapacity}

/-- The queue once capacity in flight is online. -/
def land (q : Queue) (id : PlannedId) (p : PlannedCapacity) : Queue where
  items := q.items.mapValues fun _ e => e.unlink [id]
  inFlight := q.inFlight.erase id
  available := q.available.insert p.resource (q.availableOf p.resource + p.units)

theorem online_of_flying (flying : q.inFlight.find? id = some p) :
    q.online id = .ok (q.land id p) := by
  simp only [online, flying, land, QueuedItem.unlink_singleton]

theorem find?_available_land (q : Queue) (id : PlannedId) (p : PlannedCapacity)
    (r : ResourceClass) : (q.land id p).available.find? r =
      if r = p.resource then some (q.availableOf r + p.units) else q.available.find? r := by
  simp only [land, Table.find?_insert]
  split
  · rename_i here
    rw [here]
  · rfl

theorem availableOf_land (q : Queue) (id : PlannedId) (p : PlannedCapacity) (r : ResourceClass) :
    (q.land id p).availableOf r =
      if r = p.resource then q.availableOf r + p.units else q.availableOf r := by
  simp only [availableOf, Table.findD, find?_available_land]
  split <;> rfl

/-- Two capacities come online in either order. -/
theorem land_comm (q : Queue) (id id' : PlannedId) (p p' : PlannedCapacity) :
    (q.land id p).land id' p' = (q.land id' p').land id p := by
  have items : ((q.land id p).land id' p').items = ((q.land id' p').land id p).items := by
    simp only [land, Table.mapValues_mapValues, QueuedItem.unlink_comm _ [id] [id']]
  have inFlight : ((q.land id p).land id' p').inFlight =
      ((q.land id' p').land id p).inFlight := Table.erase_comm _ _ _
  have available : ((q.land id p).land id' p').available =
      ((q.land id' p').land id p).available := by
    refine Table.ext_find? fun r => ?_
    simp only [find?_available_land, availableOf_land]
    by_cases here : r = p.resource <;> by_cases here' : r = p'.resource
    · rw [if_pos here, if_pos here', if_pos here', if_pos here, UInt32.add_assoc,
        UInt32.add_comm p.units, ← UInt32.add_assoc]
    · simp only [if_pos here, if_neg here']
    · simp only [if_neg here, if_pos here']
    · simp only [if_neg here, if_neg here']
  calc (q.land id p).land id' p'
    _ = ⟨((q.land id p).land id' p').items, ((q.land id p).land id' p').inFlight,
        ((q.land id p).land id' p').available⟩ := rfl
    _ = (q.land id' p').land id p := by rw [items, inFlight, available]

end Queue

namespace Site

variable {r : ResourceClass} {s s' s'' : Site StaticLimiter} {id id' : PlannedId}
  {p : PlannedCapacity}

theorem retire_of_flying (flying : s.queue.inFlight.find? id = some p) :
    s.retire id = { s with queue := s.queue.land id p, limiter := s.limiter.release id } := by
  simp only [retire, online, Queue.online_of_flying flying]
  rfl

theorem retire_of_none (landed : s.queue.inFlight.find? id = none) : s.retire id = s := by
  simp only [retire, online, Queue.online, landed]

theorem find?_inFlight_retire (s : Site StaticLimiter) (id id' : PlannedId) :
    (s.retire id).queue.inFlight.find? id' =
      if id' = id then none else s.queue.inFlight.find? id' := by
  cases flying : s.queue.inFlight.find? id with
  | none =>
    rw [retire_of_none flying]
    split
    · rename_i own
      rw [own, flying]
    · rfl
  | some p =>
    rw [retire_of_flying flying]
    exact Table.find?_erase _ _ _

/-- Two capacities are retired in either order. -/
theorem retire_comm (s : Site StaticLimiter) (id id' : PlannedId) :
    (s.retire id).retire id' = (s.retire id').retire id := by
  by_cases same : id' = id
  · rw [same]
  have later : (s.retire id).queue.inFlight.find? id' = s.queue.inFlight.find? id' :=
    (find?_inFlight_retire s id id').trans (if_neg same)
  have later' : (s.retire id').queue.inFlight.find? id = s.queue.inFlight.find? id :=
    (find?_inFlight_retire s id' id).trans (if_neg (Ne.symm same))
  cases flying : s.queue.inFlight.find? id with
  | none =>
    rw [retire_of_none flying, retire_of_none (later'.trans flying)]
  | some p =>
    cases flying' : s.queue.inFlight.find? id' with
    | none => rw [retire_of_none flying', retire_of_none (later.trans flying')]
    | some p' =>
      rw [retire_of_flying (later.trans flying'), retire_of_flying (later'.trans flying),
        retire_of_flying flying, retire_of_flying flying']
      have limiter : (s.limiter.release id).release id' = (s.limiter.release id').release id := by
        simp only [StaticLimiter.release, Table.erase_comm s.limiter.usage id id']
      simp only [Queue.land_comm s.queue id id', limiter]

/-! ## All capacity of a class -/

/-- Capacities of a class have come online and were given back to the limiter. -/
structure Retires (r : ResourceClass) (ids : List PlannedId) (s s' : Site StaticLimiter) :
    Prop where
  items : ∀ id, s'.queue.items.find? id = (s.queue.items.find? id).map (·.unlink ids)
  inFlight : ∀ id, s'.queue.inFlight.find? id =
    if id ∈ ids then none else s.queue.inFlight.find? id
  capacity : s'.queue.capacity r = s.queue.capacity r
  others : ∀ r', r' ≠ r → s'.queue.availableOf r' = s.queue.availableOf r'
  usage : ∀ id, s'.limiter.usage.find? id = if id ∈ ids then none else s.limiter.usage.find? id
  frame : ∃ queue usage, s' = { s with queue, limiter := { s.limiter with usage } }

namespace Retires

theorem refl (r : ResourceClass) (s : Site StaticLimiter) : s.Retires r [] s := by
  constructor
  case items => simp [QueuedItem.unlink_nil]
  case inFlight => exact fun _ => rfl
  case capacity => rfl
  case others => exact fun _ _ => rfl
  case usage => exact fun _ => rfl
  case frame => exact ⟨s.queue, s.limiter.usage, rfl⟩

theorem trans {ids ids' : List PlannedId} (h : s.Retires r ids s') (h' : s'.Retires r ids' s'') :
    s.Retires r (ids ++ ids') s'' := by
  constructor
  case items =>
    intro id
    rw [h'.items, h.items, Option.map_map]
    simp only [Function.comp_def, QueuedItem.unlink_unlink]
  case inFlight =>
    intro id
    rw [h'.inFlight, h.inFlight, ite_mem_append]
  case capacity => exact h'.capacity.trans h.capacity
  case others => exact fun r' other => (h'.others r' other).trans (h.others r' other)
  case usage =>
    intro id
    rw [h'.usage, h.usage, ite_mem_append]
  case frame =>
    obtain ⟨_, _, rfl⟩ := h.frame
    exact h'.frame

/-- One capacity of the class is retired. -/
theorem one (flying : s.queue.inFlight.find? id = some p) (ofClass : p.resource = r)
    (fits : s.queue.capacity r < 4294967296) : s.Retires r [id] (s.retire id) := by
  rw [retire_of_flying flying]
  constructor
  case items => exact fun id' => Table.find?_mapValues _ _ _
  case inFlight =>
    intro id'
    simp only [List.mem_singleton]
    exact Table.find?_erase _ _ _
  case capacity =>
    have lands : s.queue.Lands p id (s.queue.land id p) := ⟨flying, rfl, rfl⟩
    refine (lands.capacity_eq ?_ r).symm
    rw [Queue.capacity_eq, Table.sumOf_of_find? flying, ← ofClass] at fits
    simp only [PlannedCapacity.unitsIf, beq_self_eq_true, if_true] at fits
    omega
  case others =>
    exact fun r' other => (Queue.availableOf_land _ _ _ _).trans (if_neg fun same =>
      other (same.trans ofClass))
  case usage =>
    intro id'
    simp only [List.mem_singleton]
    exact StaticLimiter.find?_release _ _ _
  case frame => exact ⟨_, _, rfl⟩

end Retires

/-- Capacities of a class that are in flight are retired one after the other. -/
theorem retires {ids : List PlannedId} (s : Site StaticLimiter) (once : ids.Nodup)
    (flying : ∀ id ∈ ids, ∃ p, s.queue.inFlight.find? id = some p ∧ p.resource = r)
    (fits : s.queue.capacity r < 4294967296) : s.Retires r ids (ids.foldl retire s) := by
  induction ids generalizing s with
  | nil => exact .refl r s
  | cons id ids ih =>
    obtain ⟨first, once⟩ := List.nodup_cons.1 once
    obtain ⟨p, here, ofClass⟩ := flying id List.mem_cons_self
    have one := Retires.one here ofClass fits
    refine one.trans (ih (s.retire id) once ?_ (one.capacity ▸ fits))
    intro id' mem
    obtain ⟨p', here', ofClass'⟩ := flying id' (List.mem_cons_of_mem _ mem)
    refine ⟨p', ?_, ofClass'⟩
    rw [one.inFlight, if_neg, here']
    exact fun same => first (List.mem_singleton.1 same ▸ mem)

end Site

namespace Queue

variable {q q' : Queue} {r : ResourceClass}

/-- The items that ready work runs: the first in line, as many as there are units. -/
def served (q : Queue) (r : ResourceClass) : List WorkItemId :=
  ((q.snapshot r).items.take (min (q.snapshot r).items.length (q.capacity r))).map (·.item.id)

theorem length_served (q : Queue) (r : ResourceClass) :
    (q.served r).length = min (q.snapshot r).items.length (q.capacity r) := by
  rw [served, List.length_map, List.length_take, Nat.min_eq_left (Nat.min_le_left _ _)]

end Queue

namespace Site

variable {r : ResourceClass} {s s' : Site StaticLimiter} {ids : List PlannedId}

/-! ## Ready work -/

/-- Ready work, with the capacity of the class in some order. -/
def readyWorkIn (ids : List PlannedId) (r : ResourceClass) (s : Site StaticLimiter) :
    Site StaticLimiter :=
  let s := ids.foldl retire s
  assignAll ((s.queue.snapshot r).items.map (·.item.id)) s

/-- The order of the capacity does not matter. -/
theorem readyWorkIn_perm (order : ids.Perm (s.queue.inFlightIds r)) :
    s.readyWorkIn ids r = s.runReadyWork r := by
  have retired : ids.foldl retire s = (s.queue.inFlightIds r).foldl retire s :=
    order.foldl_eq' (fun id _ id' _ s => retire_comm s id id') s
  simp only [readyWorkIn, runReadyWork, retired]

/-- The work of a class is done as far as its capacity goes. -/
structure Drained (r : ResourceClass) (s s' : Site StaticLimiter) : Prop where
  /-- Items stood in line in order, with nobody twice. -/
  inOrder : (s.queue.snapshot r).items.Pairwise fun a b => a.item.before b.item = true
  landed : s'.queue.inFlightOf r = []
  released : ∀ id, s'.limiter.usage.find? id =
    if id ∈ s.queue.inFlightIds r then none else s.limiter.usage.find? id
  /-- Links apart, exactly the items that were served have left the queue. -/
  left : ∀ id, s'.queue.bare.items.find? id =
    if id ∈ s.queue.served r then none else s.queue.bare.items.find? id
  idle : (s'.queue.availableOf r).toNat =
    s.queue.capacity r - min (s.queue.snapshot r).items.length (s.queue.capacity r)
  /-- Items of other classes lose their links to the capacity, and nothing else. -/
  elsewhere : ∀ id e, s.queue.items.find? id = some e → e.item.resource ≠ r →
    s'.queue.items.find? id = some (e.unlink (s.queue.inFlightIds r))
  others : ∀ r', r' ≠ r → s'.queue.inFlightOf r' = s.queue.inFlightOf r' ∧
    s'.queue.availableOf r' = s.queue.availableOf r'
  /-- The limiter counts as before for a class for which none of the capacity is registered. -/
  usage : ∀ p r', r' ≠ r → (∀ id ∈ s.queue.inFlightIds r, ∀ c,
    s.limiter.usage.find? id = some c → c.resource ≠ r') →
      s'.limiter.inUse p r' = s.limiter.inUse p r'
  frame : ∃ queue usage, s' = { s with queue, limiter := { s.limiter with usage } }

namespace Retires

theorem bare_items (h : s.Retires r ids s') : s'.queue.bare.items = s.queue.bare.items := by
  refine Table.ext_find? fun id => ?_
  rw [Queue.find?_bare, Queue.find?_bare, h.items, Option.map_map]
  rfl

theorem filed (h : s.Retires r ids s') (filed : s.queue.Filed) : s'.queue.Filed := by
  intro id e found
  rw [h.items] at found
  obtain ⟨e', here, rfl⟩ := Option.map_eq_some_iff.1 found
  exact filed id e' here

/-- The same items stand in line. -/
theorem line (h : s.Retires r ids s') : (s'.queue.snapshot r).items.map (·.item.id) =
    (s.queue.snapshot r).items.map (·.item.id) := by
  have same := congrArg (List.map (·.item.id)) (Queue.snapshot_items_congr h.bare_items r)
  rwa [List.map_map, List.map_map] at same

/-- Once all capacity of the class has come online, all its units are idle. -/
theorem landed (h : s.Retires r (s.queue.inFlightIds r) s')
    (keyed : PlannedCapacity.Keyed s.queue.inFlight) : s'.queue.inFlightOf r = [] := by
  refine List.filter_eq_nil_iff.2 fun p mem ofClass => ?_
  obtain ⟨id, flying⟩ := Table.mem_values.1 mem
  rw [h.inFlight] at flying
  split at flying
  · cases flying
  · rename_i other
    exact other ((Queue.mem_inFlightIds keyed).2 ⟨p, flying, beq_iff_eq.1 ofClass⟩)

/-- Capacity of other classes stays in flight. -/
theorem inFlightOf_of_ne (h : s.Retires r (s.queue.inFlightIds r) s')
    (keyed : PlannedCapacity.Keyed s.queue.inFlight) {r' : ResourceClass} (other : r' ≠ r) :
    s'.queue.inFlightOf r' = s.queue.inFlightOf r' := by
  refine Table.filter_values_congr fun id p ofClass => ?_
  rw [h.inFlight, if_congr (Queue.mem_inFlightIds keyed) rfl rfl]
  split
  · rename_i flying
    obtain ⟨p', flying, ofClass'⟩ := flying
    refine iff_of_false (Option.some_ne_none p).symm fun here => other ?_
    cases here.symm.trans flying
    exact (beq_iff_eq.1 ofClass).symm.trans ofClass'
  · rfl

/-- The limiter counts as before for a class for which none of the capacities is registered. -/
theorem inUse_eq (h : s.Retires r ids s') {r' : ResourceClass}
    (apart : ∀ id ∈ ids, ∀ c, s.limiter.usage.find? id = some c → c.resource ≠ r')
    (p : ProviderId) : s'.limiter.inUse p r' = s.limiter.inUse p r' := by
  refine congrArg (fun l : List PlannedCapacity => Count.total (l.map (·.units))) ?_
  refine Table.filter_values_congr fun id c counted => ?_
  have ofClass : c.resource = r' := beq_iff_eq.1 (Bool.and_eq_true_iff.1 counted).2
  rw [h.usage]
  split
  · rename_i mem
    exact iff_of_false (Option.some_ne_none c).symm fun here => apart id mem c here ofClass
  · rfl

/-- All units of the class are idle then. -/
theorem units (h : s.Retires r (s.queue.inFlightIds r) s')
    (keyed : PlannedCapacity.Keyed s.queue.inFlight) :
    (s'.queue.availableOf r).toNat = s.queue.capacity r := by
  rw [← h.capacity, Queue.capacity, h.landed keyed]
  rfl

/-- The items that run next are the first that stood in line before. -/
theorem served (h : s.Retires r (s.queue.inFlightIds r) s')
    (keyed : PlannedCapacity.Keyed s.queue.inFlight) :
    ((s'.queue.snapshot r).items.map (·.item.id)).take (s'.queue.availableOf r).toNat =
      s.queue.served r := by
  rw [h.line, h.units keyed, ← List.map_take, List.take_eq_take_min, Nat.min_comm]
  rfl

end Retires

theorem drained (s : Site StaticLimiter) (r : ResourceClass) (reached : s.queue.Reached)
    (fits : s.queue.capacity r < 4294967296) : s.Drained r (s.runReadyWork r) := by
  have keyed := reached.keyed
  have once := Queue.inFlightIds_nodup keyed r
  have retired := s.retires once (fun id mem => (Queue.mem_inFlightIds keyed).1 mem) fits
  rw [runReadyWork]
  generalize (s.queue.inFlightIds r).foldl retire s = s₁ at retired ⊢
  have filed := retired.filed reached.filed
  have ran := s₁.assignAll_runs filed (filed.snapshot_nodup r) fun _ mem => filed.ready mem
  rw [retired.served keyed] at ran
  obtain ⟨queue, same⟩ := assignAll_frame ((s₁.queue.snapshot r).items.map (·.item.id)) s₁
  rw [same] at ran ⊢
  have inFlightOf : ∀ r', queue.inFlightOf r' = s₁.queue.inFlightOf r' := fun r' => by
    rw [Queue.inFlightOf, ran.inFlight]
    rfl
  constructor
  case inOrder => exact reached.filed.snapshot_inOrder r
  case landed => exact (inFlightOf r).trans (retired.landed keyed)
  case released => exact retired.usage
  case left =>
    intro id
    rw [ran.items, retired.bare_items]
  case idle =>
    have idle := ran.idle
    rw [retired.units keyed, Queue.length_served] at idle
    exact Nat.eq_sub_of_add_eq idle
  case elsewhere =>
    intro id e found other
    refine (ran.elsewhere id (e.unlink (s.queue.inFlightIds r)) other).2 ?_
    rw [retired.items, found, Option.map_some]
  case others =>
    intro r' other
    exact ⟨(inFlightOf r').trans (retired.inFlightOf_of_ne keyed other),
      (ran.others r' other).trans (retired.others r' other)⟩
  case usage => exact fun p r' _ apart => retired.inUse_eq apart p
  case frame =>
    obtain ⟨_, usage, rfl⟩ := retired.frame
    exact ⟨queue, usage, rfl⟩

/-- Ready work takes the capacity of its class out of flight and runs the first items in line, as
many as there are units. It does not matter in which order the capacity comes online. Other classes
lose their links to the capacity, and what was registered with the limiter under its identifiers. -/
theorem ready_work_drains (s : Site StaticLimiter) (r : ResourceClass) (reached : s.queue.Reached)
    (fits : s.queue.capacity r < 4294967296) (ids : List PlannedId)
    (order : ids.Perm (s.queue.inFlightIds r)) :
    s.readyWorkIn ids r = s.runReadyWork r ∧ s.Drained r (s.readyWorkIn ids r) := by
  have same := readyWorkIn_perm order
  exact ⟨same, same ▸ drained s r reached fits⟩

/-- Three items, one of them of another class, and capacity of two units for the other two. -/
def laden : Site StaticLimiter where
  queue := Queue.empty.run [
    .submitBuildable (Sample.item 1), .submitBuildable ⟨.ofNat 2, .label "x", default⟩,
    .submitBuildable (Sample.item 3),
    .recordPending [⟨.ofNat 1, .ofNat 1, .unlabeled, 1⟩, ⟨.ofNat 2, .ofNat 1, .unlabeled, 1⟩],
    .track ⟨.ofNat 2, .ofNat 1⟩]
  limiter := StaticLimiter.empty.register ⟨.ofNat 1, .ofNat 1, .unlabeled, 1⟩
  line := .ofCapacity 1

theorem drains_of_laden :
    [.ofNat 2, .ofNat 1].Perm (laden.queue.inFlightIds .unlabeled) ∧
      laden.queue.served .unlabeled = [.ofNat 1, .ofNat 3] ∧
      laden.readyWorkIn [.ofNat 2, .ofNat 1] .unlabeled =
        laden.runReadyWork .unlabeled ∧
      laden.Drained .unlabeled
        (laden.readyWorkIn [.ofNat 2, .ofNat 1] .unlabeled) := by
  have order : [.ofNat 2, .ofNat 1].Perm (laden.queue.inFlightIds .unlabeled) := by decide
  exact ⟨order, by decide, ready_work_drains laden .unlabeled ⟨_, rfl⟩ (by decide) _ order⟩

/-! ## Capacity that is registered for another class -/

/-- An identifier that is recorded twice, the second time for another class. -/
def rerecorded : List Queue.Op := [
  .recordPending [⟨.ofNat 1, .ofNat 1, .unlabeled, 1⟩],
  .recordPending [⟨.ofNat 1, .ofNat 1, .label "x", 1⟩]]

/-- The limiter still has it registered for the first class. -/
def misfiled : Site StaticLimiter where
  queue := Queue.empty.run rerecorded
  limiter := StaticLimiter.empty.register ⟨.ofNat 1, .ofNat 1, .unlabeled, 1⟩
  line := .ofCapacity 1

/-- The limiter may count less for another class after ready work. -/
theorem usage_of_others_changes : ¬ ∀ (s : Site StaticLimiter) (r : ResourceClass),
    s.queue.Reached → s.queue.capacity r < 4294967296 → ∀ p r', r' ≠ r →
      (s.runReadyWork r).limiter.inUse p r' = s.limiter.inUse p r' := by
  intro unchanged
  have same := unchanged misfiled (.label "x") ⟨rerecorded, rfl⟩ (by decide) (.ofNat 1) .unlabeled
    (by decide)
  have less : (misfiled.runReadyWork (.label "x")).limiter.inUse (.ofNat 1) .unlabeled = 0 := by
    decide
  have one : misfiled.limiter.inUse (.ofNat 1) .unlabeled = 1 := by decide
  rw [less, one] at same
  cases same

end Site

end Muster
