import Mathlib.Data.List.Nodup
import Muster.Proofs.Links

/-!
# Links never outnumber units

A review links items to what a provider has planned, at most one to each unit, and reports the links
before the capacity is in flight. From then on the queue goes its own way, and the review may wait.

Links to a capacity are reported once, when it is created: its identifier is new then, so nothing is
linked to it yet. Later operations never link more items to it. So a capacity has at most as many
links as it has units, and only to items of its class, whether it was accepted, is in flight or is
gone. The invariant says so for all capacity that was ever created; what is in flight was created.

**Main statement.** `Run.links_le_units`: in every run in which the identifiers of capacity are new
and items that come back have the class they had.
-/

namespace Muster

open PlannedCapacity (Keyed)

variable {L : Type}

/-! ## What is assumed -/

/-- Items come back in the class they had. -/
def Move.Labels (classOf : WorkItemId → ResourceClass) : Move → Prop
  | submit item | submitBuildable item => item.resource = classOf item.id
  | _ => True

/-- Capacity is of the class that was asked for. -/
def Answer.OfClass (q : Request) : Answer → Prop
  | .error _ => True
  | .ok planned => ∀ p ∈ planned, p.resource = q.resource

/-- The items that a review knows belong to the classes for which it knows them. -/
def ReviewState.Classed (classOf : WorkItemId → ResourceClass) (st : ReviewState) : Prop :=
  ∀ r d, st.classes.find? r = some d → ∀ item ∈ d.items.map (·.item), classOf item.id = r

/-- Strategies of the host may use the queue and plan capacity, but they report no links, and they
bring no strange items and no strange capacity into the review. -/
def Chain.OnlyEnginesTrack (classOf : WorkItemId → ResourceClass) (c : Chain L) : Prop :=
  ∀ name ordinal apply, .custom name ordinal apply ∈ c → ∀ b s st d s' st',
    apply b s st = (d, s', st') →
      (∃ ops new, s'.queue = s.queue.run ops ∧ s'.created = s.created ++ new ∧
        ∀ op ∈ ops, op.Labels classOf ∧ op.links = [] ∧ ∀ p ∈ op.records, p ∈ s'.created) ∧
      (st.Classed classOf → st'.Classed classOf) ∧
      ∀ p ∈ st'.planned, p ∈ st.planned ∨ p ∈ s'.created

theorem Chain.Plain.onlyEnginesTrack {c : Chain L} (h : c.Plain)
    (classOf : WorkItemId → ResourceClass) : c.OnlyEnginesTrack classOf :=
  fun _ _ _ mem => absurd mem (h _ _ _)

variable {classOf : WorkItemId → ResourceClass}

/-! ## The links of a review -/

namespace ReviewState

/-- The units of one capacity. -/
def unitsOf (p : PlannedId) (units : List (PlannedId × Nat)) : Nat :=
  ((units.filter (·.1 == p)).map Prod.snd).sum

variable {p : PlannedId} {units left : List (PlannedId × Nat)} {planned : List PlannedCapacity}
  {items : List PendingItem}

theorem unitsOf_cons (p id : PlannedId) (n : Nat) (units : List (PlannedId × Nat)) :
    unitsOf p ((id, n) :: units) = (if id = p then n else 0) + unitsOf p units := by
  by_cases e : id = p <;> simp [unitsOf, e]

theorem unitsOf_eq_zero (absent : ∀ x ∈ units, x.1 ≠ p) : unitsOf p units = 0 := by
  have none : units.filter (·.1 == p) = [] :=
    List.filter_eq_nil_iff.2 fun x mem => by simpa using absent x mem
  simp [unitsOf, none]

/-- With identifiers that are used once, a capacity has its own units. -/
theorem unitsOf_planned (once : (planned.map (·.id)).Nodup) {p : PlannedCapacity}
    (mem : p ∈ planned) : unitsOf p.id (planned.map fun p => (p.id, p.units.toNat)) =
      p.units.toNat := by
  induction planned with
  | nil => cases mem
  | cons x planned ih =>
    obtain ⟨first, rest⟩ := List.nodup_cons.1 once
    rw [List.map_cons, unitsOf_cons]
    rcases List.mem_cons.1 mem with rfl | mem
    · have none : unitsOf p.id (planned.map fun p => (p.id, p.units.toNat)) = 0 := by
        refine unitsOf_eq_zero fun y hy same => first ?_
        obtain ⟨z, hz, rfl⟩ := List.mem_map.1 hy
        exact List.mem_map.2 ⟨z, hz, same⟩
      rw [if_pos rfl, none, Nat.add_zero]
    · have other : x.id ≠ p.id := fun same => first (List.mem_map.2 ⟨p, mem, same.symm⟩)
      rw [if_neg other, ih rest mem, Nat.zero_add]

theorem unitsOf_nextUnit? {id : PlannedId} (h : nextUnit? units = some (id, left))
    (p : PlannedId) : unitsOf p units = unitsOf p left + if id = p then 1 else 0 := by
  induction units with
  | nil => cases h
  | cons x rest ih =>
    obtain ⟨id', n⟩ := x
    cases n with
    | zero => simpa [unitsOf_cons] using ih h
    | succ n =>
      cases h
      rw [unitsOf_cons, unitsOf_cons]
      by_cases e : id = p
      · simp only [if_pos e]
        omega
      · simp only [if_neg e]
        omega

/-- No capacity is linked to more items than it has units. -/
theorem countP_linkUnits_le (items : List PendingItem) (units : List (PlannedId × Nat))
    (p : PlannedId) : (linkUnits units items).2.countP (·.planned == p) ≤ unitsOf p units := by
  induction items generalizing units with
  | nil => simp [linkUnits]
  | cons x items ih =>
    simp only [linkUnits]
    split
    · exact ih units
    · cases next : nextUnit? units with
      | none => simp
      | some unit =>
        obtain ⟨id, left⟩ := unit
        have rest := ih left
        rw [unitsOf_nextUnit? next]
        simp only [List.countP_cons, beq_iff_eq]
        omega

/-- Links are for items on the list. -/
theorem mem_linkUnits {link : Link} (mem : link ∈ (linkUnits units items).2) :
    link.item ∈ items.map (·.item.id) := by
  induction items generalizing units with
  | nil => cases mem
  | cons x items ih =>
    simp only [linkUnits] at mem
    split at mem
    · exact List.mem_cons_of_mem _ (ih mem)
    · cases next : nextUnit? units with
      | none =>
        rw [next] at mem
        cases mem
      | some unit =>
        rw [next] at mem
        rcases List.mem_cons.1 mem with rfl | mem
        · exact List.mem_cons_self
        · exact List.mem_cons_of_mem _ (ih mem)

end ReviewState

/-- Each link is to one of the capacities and for an item of its class, and no capacity has more
links than units. -/
structure Serves (classOf : WorkItemId → ResourceClass) (planned : List PlannedCapacity)
    (links : List Link) : Prop where
  known : ∀ link ∈ links, ∃ p ∈ planned, p.id = link.planned ∧ p.resource = classOf link.item
  count : ∀ p ∈ planned, links.countP (·.planned == p.id) ≤ p.units.toNat

theorem Serves.none (planned : List PlannedCapacity) : Serves classOf planned [] :=
  ⟨fun _ mem => (nomatch mem), fun _ _ => Nat.zero_le _⟩

namespace ReviewState.Classed

variable {st : ReviewState} {r : ResourceClass} {p : ProviderId} {planned : List PlannedCapacity}

theorem recordPlanned (h : st.Classed classOf) :
    (st.recordPlanned r p planned).2.Classed classOf := by
  simp only [ReviewState.recordPlanned]
  cases known : st.classes.find? r with
  | none => exact h
  | some d =>
    intro r' d' found
    rcases Table.find?_insert_cases found with ⟨rfl, rfl⟩ | ⟨-, old⟩
    · rw [items_linkUnits]
      exact h r' d known
    · exact h r' d' old

/-- What a review links serves the capacity that was planned for a class. -/
theorem serves (h : st.Classed classOf) (ofClass : ∀ p ∈ planned, p.resource = r)
    (once : (planned.map (·.id)).Nodup) :
    Serves classOf planned (st.recordPlanned r p planned).1 := by
  simp only [ReviewState.recordPlanned]
  cases known : st.classes.find? r with
  | none => exact .none planned
  | some d =>
    have count := countP_linkUnits_le d.items (planned.map fun p => (p.id, p.units.toNat))
    constructor
    · intro link mem
      have units : unitsOf link.planned (planned.map fun p => (p.id, p.units.toNat)) ≠ 0 := by
        refine Nat.ne_of_gt (Nat.lt_of_lt_of_le (List.countP_pos_iff.2 ?_) (count link.planned))
        exact ⟨link, mem, beq_self_eq_true _⟩
      obtain ⟨p, here, same⟩ : ∃ p ∈ planned, p.id = link.planned := by
        by_contra absent
        refine units (unitsOf_eq_zero fun x hx same => ?_)
        obtain ⟨p, here, rfl⟩ := List.mem_map.1 hx
        exact absent ⟨p, here, same⟩
      obtain ⟨x, hx, item⟩ := List.mem_map.1 (mem_linkUnits mem)
      refine ⟨p, here, same, (ofClass p here).trans ?_⟩
      rw [← item]
      exact (h r d known x.item (List.mem_map_of_mem hx)).symm
    · intro p mem
      exact unitsOf_planned once mem ▸ count p.id

/-- A review begins with items of its class. -/
theorem captured {s : Site L} (classed : s.queue.Classed classOf) (r : ResourceClass) :
    (Cycle.captured r s).Classed classOf := by
  intro r' d found item mem
  rcases Table.find?_insert_cases found with ⟨rfl, rfl⟩ | ⟨-, old⟩
  · obtain ⟨x, listed, rfl⟩ := List.mem_map.1 mem
    obtain ⟨e, here, rfl⟩ := List.mem_map.1 (Queue.mem_arrange.1 listed)
    obtain ⟨waits, test⟩ := List.mem_filter.1 here
    obtain ⟨id, found⟩ := Table.mem_values.1 waits
    obtain ⟨own, resource⟩ := classed id e found
    rw [own, ← resource]
    simpa using (Bool.and_eq_true_iff.1 test).2
  · cases old

end ReviewState.Classed

/-! ## Links and units -/

namespace Queue

/-- All links are to capacity that was created, to items of its class, and not more than its
units. -/
structure Bears (created : List PlannedCapacity) (q : Queue) : Prop where
  known : ∀ r p, q.LinksTo r p → p ∈ created.map (·.id)
  load : ∀ p ∈ created, q.load p.id ≤ p.units.toNat
  resource : ∀ p ∈ created, ∀ r, q.LinksTo r p.id → r = p.resource

variable {q q' : Queue} {created new : List PlannedCapacity} {links : List Link}

/-- New capacity comes with links that serve it. -/
theorem Bears.gain (h : q.Bears created) (gains : q.Gains classOf links q')
    (serves : Serves classOf new links) (fresh : ((created ++ new).map (·.id)).Nodup) :
    q'.Bears (created ++ new) := by
  rw [List.map_append] at fresh
  obtain ⟨-, once, apart⟩ := List.nodup_append.1 fresh
  have strange : ∀ p ∈ new, ∀ r, ¬ q.LinksTo r p.id := fun p mem r linked =>
    apart p.id (h.known r p.id linked) p.id (List.mem_map_of_mem mem) rfl
  have elsewhere : ∀ p ∈ created, ∀ link ∈ links, link.planned ≠ p.id := by
    intro p mem link reported same
    obtain ⟨p', new', here, -⟩ := serves.known link reported
    exact apart p.id (List.mem_map_of_mem mem) p'.id (List.mem_map_of_mem new')
      (same.symm.trans here.symm)
  refine ⟨?_, ?_, ?_⟩
  · intro r p linked
    rw [List.map_append]
    rcases gains.linked r p linked with before | ⟨link, reported, -, rfl⟩
    · exact List.mem_append_left _ (h.known r p before)
    · obtain ⟨p', mem, same, -⟩ := serves.known link reported
      exact List.mem_append_right _ (same ▸ List.mem_map_of_mem mem)
  · intro p mem
    have load := gains.load p.id
    rcases List.mem_append.1 mem with old | mem
    · have none : links.countP (·.planned == p.id) = 0 :=
        List.countP_eq_zero.2 fun link reported => by simpa using elsewhere p old link reported
      have before := h.load p old
      omega
    · have none := load_eq_zero (strange p mem)
      have count := serves.count p mem
      omega
  · intro p mem r linked
    rcases List.mem_append.1 mem with old | mem
    · rcases gains.linked r p.id linked with before | ⟨link, reported, -, same⟩
      · exact h.resource p old r before
      · exact absurd same (elsewhere p old link reported)
    · rcases gains.linked r p.id linked with before | ⟨link, reported, rfl, same⟩
      · exact absurd before (strange p mem r)
      · obtain ⟨p', mem', here, resource⟩ := serves.known link reported
        rw [← List.inj_on_of_nodup_map once mem' mem (here.trans same)]
        exact resource.symm

end Queue

/-- What the queue of a site holds was created on the site, and its links are in order if
identifiers were never used twice. -/
structure Site.Linked (classOf : WorkItemId → ResourceClass) (s : Site L) : Prop where
  classed : s.queue.Classed classOf
  keyed : Keyed s.queue.inFlight
  flying : ∀ p ∈ s.queue.inFlight.values, p ∈ s.created
  bears : (s.created.map (·.id)).Nodup → s.queue.Bears s.created

/-- Operations on the queue, and capacity that is created meanwhile and served by their links. -/
theorem Site.Linked.run {s s' : Site L} (h : s.Linked classOf) (ops : List Queue.Op)
    (new : List PlannedCapacity) (queue : s'.queue = s.queue.run ops)
    (created : s'.created = s.created ++ new) (labels : ∀ op ∈ ops, op.Labels classOf)
    (records : ∀ op ∈ ops, ∀ p ∈ op.records, p ∈ s'.created)
    (serves : (new.map (·.id)).Nodup → Serves classOf new (ops.flatMap Queue.Op.links)) :
    s'.Linked classOf := by
  have gains := Queue.run_gains labels h.classed
  rw [← queue] at gains
  refine ⟨?_, ?_, ?_, ?_⟩
  · rw [queue]
    exact Queue.run_keeps (fun _ op mem => op.classed_apply (labels op mem)) h.classed
  · rw [queue]
    exact Queue.run_keeps (P := fun q => Keyed q.inFlight) (fun _ op _ => op.keyed_apply) h.keyed
  · intro p mem
    rw [queue] at mem
    rcases Queue.mem_inFlight_run mem with before | ⟨op, listed, here⟩
    · rw [created]
      exact List.mem_append_left _ (h.flying p before)
    · exact records op listed p here
  · intro fresh
    rw [created] at fresh ⊢
    have parts := fresh
    rw [List.map_append] at parts
    obtain ⟨before, once, -⟩ := List.nodup_append.1 parts
    exact (h.bears before).gain gains (serves once) fresh

/-- Nothing happens to the queue, and nothing is created. -/
theorem Site.Linked.same {s s' : Site L} (h : s.Linked classOf) (queue : s'.queue = s.queue)
    (created : s'.created = s.created) : s'.Linked classOf :=
  h.run [] [] queue (by simp [created]) nofun nofun fun _ => .none []

/-! ## Steps -/

/-- What a review knows and has planned is in order. -/
structure ReviewState.Linked (classOf : WorkItemId → ResourceClass)
    (created : List PlannedCapacity) (st : ReviewState) : Prop where
  classed : st.Classed classOf
  created : ∀ p ∈ st.planned, p ∈ created

theorem ReviewState.Linked.mono {created created' : List PlannedCapacity} {st : ReviewState}
    (h : st.Linked classOf created) (more : created ⊆ created') : st.Linked classOf created' :=
  ⟨h.classed, fun p mem => more (h.created p mem)⟩

/-- The operations of a move leave links and capacity in flight to the reviews. -/
theorem Move.Labels.performs {m : Move} (h : m.Labels classOf) {op : Queue.Op}
    (performs : m.Performs op) : op.Labels classOf ∧ op.links = [] ∧ op.records = [] := by
  cases m with
  | submit item | submitBuildable item =>
    cases performs
    exact ⟨h, rfl, rfl⟩
  | makeBuildable id | cancel id | assign id | online id =>
    cases performs
    exact ⟨trivial, rfl, rfl⟩
  | runReadyWork r => rcases performs with ⟨id, rfl⟩ | ⟨id, rfl⟩ <;> exact ⟨trivial, rfl, rfl⟩
  | release id | request r source item => cases performs

section Steps

variable {w : Wiring} {b : Behaviour} {c : Chain L}

theorem Site.Linked.emit {s : Site L} (h : s.Linked classOf) {st : ReviewState} (e : Event)
    (knows : st.Linked classOf s.created) : (s.emit w e).Linked classOf ∧
      st.Linked classOf (s.emit w e).created ∧ s.created ⊆ (s.emit w e).created := by
  have created := (Site.emit_same w e s).created
  refine ⟨h.same (Site.inquires_emit w e s).queue created, ?_⟩
  rw [created]
  exact ⟨knows, List.Subset.refl _⟩

theorem Site.tracks_eq_run (tracker : w.tracker = .queue) (links : List Link) (s : Site L) :
    (links.foldl (track w) s).queue = s.queue.run (links.map .track) := by
  induction links generalizing s with
  | nil => rfl
  | cons link links ih =>
    rw [List.foldl_cons, ih, List.map_cons, Queue.run_cons]
    simp only [track, tracker, Tracker.queue, Queue.Op.apply]
    cases s.queue.track link <;> rfl

variable [Limiter L]

theorem Move.linked {m : Move} (labels : m.Labels classOf) {s : Site L} (h : s.Linked classOf) :
    (m.apply w b s).Linked classOf := by
  obtain ⟨ops, queue, performs⟩ := m.queue_eq_run (w := w) (b := b) s
  have does := fun op mem => labels.performs (performs op mem)
  refine h.run ops [] queue (by simp [Move.created_eq]) (fun op mem => (does op mem).1) ?_ ?_
  · intro op mem p here
    rw [(does op mem).2.2] at here
    cases here
  · intro _
    rw [List.flatMap_eq_nil_iff.2 fun op mem => (does op mem).2.1]
    exact .none []

/-- An answer is taken in: the items that are linked to the capacity are items of its class, and not
more than its units. -/
theorem Engine.accept_linked (tracker : w.tracker = .queue) {q : Request} {a : Answer}
    (ofClass : Answer.OfClass q a) {s s' : Site L} {st st' : ReviewState} (h : s.Linked classOf)
    (knows : st.Linked classOf s.created) (accepted : Engine.accept w q a s st = (s', st')) :
    s'.Linked classOf ∧ st'.Linked classOf s'.created ∧ s.created ⊆ s'.created := by
  cases a with
  | error e =>
    cases accepted
    exact h.emit _ knows
  | ok planned =>
    obtain ⟨created, ⟨none, -, rfl⟩ | ⟨some, -, rfl⟩⟩ := Engine.accept_stock accepted
    all_goals
      have more : s.created ⊆ s'.created := by simp [created]
      simp only [Engine.accept] at accepted
    · rw [if_pos none] at accepted
      cases accepted
      have site : Site.Linked classOf { s with created := s.created ++ planned } :=
        h.run [] planned rfl rfl (by simp) (by simp) fun _ => .none planned
      exact ⟨site, knows.mono more, more⟩
    · rw [if_neg some] at accepted
      have queue := congrArg (fun x => x.1.queue) accepted
      simp only [(Site.inquires_emit w _ _).queue, Site.tracks_eq_run tracker] at queue
      refine ⟨h.run _ planned queue.symm created ?_ ?_ ?_, ⟨knows.classed.recordPlanned, ?_⟩, more⟩
      · intro op mem
        obtain ⟨link, -, rfl⟩ := List.mem_map.1 mem
        trivial
      · intro op mem p here
        obtain ⟨link, -, rfl⟩ := List.mem_map.1 mem
        cases here
      · intro once
        have links : ∀ links : List Link,
            (links.map Queue.Op.track).flatMap Queue.Op.links = links :=
          fun links => by simp [List.flatMap_map, Queue.Op.links]
        rw [links]
        exact knows.classed.serves ofClass once
      · intro p mem
        rw [ReviewState.planned_recordPlanned] at mem
        rw [created]
        exact (List.mem_append.1 mem).elim (fun mem => List.mem_append_left _ (knows.created p mem))
          (List.mem_append_right _)

theorem Stride.linked (tracker : w.tracker = .queue) (chain : c.OnlyEnginesTrack classOf)
    {x y : Site L × ReviewState} (stride : Stride w b c Answer.OfClass x y)
    (h : x.1.Linked classOf) (knows : x.2.Linked classOf x.1.created) :
    y.1.Linked classOf ∧ y.2.Linked classOf y.1.created ∧ x.1.created ⊆ y.1.created := by
  cases stride with
  | headroom _ _ => exact ⟨h.same rfl rfl, knows, List.Subset.refl _⟩
  | limit slot _ => exact ⟨h, ⟨knows.classed, knows.created⟩, List.Subset.refl _⟩
  | request _ _ _ => exact ⟨h.same rfl rfl, knows, List.Subset.refl _⟩
  | accept _ given => exact Engine.accept_linked tracker given h knows rfl
  | @custom s st name ordinal apply mem =>
    rcases acted : apply b s st with ⟨d, s', st'⟩
    obtain ⟨⟨ops, new, queue, created, does⟩, classed, planned⟩ :=
      chain name ordinal apply mem b s st d s' st' acted
    have more : s.created ⊆ s'.created := by simp [created]
    refine ⟨h.run ops new queue created (fun op mem => (does op mem).1)
      (fun op mem => (does op mem).2.2) ?_, ⟨classed knows.classed, ?_⟩, more⟩
    · intro _
      rw [List.flatMap_eq_nil_iff.2 fun op mem => (does op mem).2.1]
      exact .none new
    · intro p mem
      exact (planned p mem).elim (fun mem => more (knows.created p mem)) id
  | report e => exact h.emit e knows

/-- The site is in order, and so are the reviews under way. -/
structure Stage.Linked (classOf : WorkItemId → ResourceClass) (f : Stage L) : Prop where
  site : f.site.Linked classOf
  reviews : ∀ r st, f.underway.find? r = some st → st.Linked classOf f.site.created

theorem Stage.Step.linked (tracker : w.tracker = .queue) (chain : c.OnlyEnginesTrack classOf)
    {f g : Stage L}
    (step : Step w b c { moves := Move.Labels classOf, answers := Answer.OfClass } f g)
    (h : f.Linked classOf) : g.Linked classOf := by
  cases step with
  | @move m labels =>
    refine ⟨Move.linked labels h.site, fun r st found => ?_⟩
    exact (h.reviews r st found).mono (by simp [Move.created_eq])
  | receive _ => exact ⟨h.site.same rfl rfl, h.reviews⟩
  | @begin r _ =>
    refine ⟨h.site.same rfl rfl, fun r' st found => ?_⟩
    rcases Table.find?_insert_cases found with ⟨rfl, rfl⟩ | ⟨-, old⟩
    · exact ⟨.captured h.site.classed r', nofun⟩
    · exact h.reviews r' st old
  | @stride r st s st' found stride =>
    obtain ⟨site, knows, more⟩ := stride.linked tracker chain h.site (h.reviews r st found)
    refine ⟨site, fun r' st'' found' => ?_⟩
    rcases Table.find?_insert_cases found' with ⟨rfl, rfl⟩ | ⟨-, old⟩
    · exact knows
    · exact (h.reviews r' st'' old).mono more
  | @conclude r st t found =>
    have queue : (Cycle.conclude w r f.site st t).1.queue =
        f.site.queue.run [.recordPending st.planned] := (Site.inquires_emit w _ _).queue
    have created : (Cycle.conclude w r f.site st t).1.created = f.site.created :=
      (Cycle.conclude_stock w r f.site st t).created
    refine ⟨h.site.run _ [] queue (by simp [created]) ?_ ?_ fun _ => .none [], ?_⟩
    · intro op mem
      cases List.mem_singleton.1 mem
      trivial
    · intro op mem p here
      cases List.mem_singleton.1 mem
      exact created.symm ▸ (h.reviews r st found).created p here
    · intro r' st' found'
      exact (h.reviews r' st' (Table.find?_of_erase found').2).mono (by simp [created])

end Steps

/-! ## Runs -/

/-- As long as identifiers of capacity are new and items that come back have the class they had,
capacity in flight is linked to at most as many items as it has units, and only to items of its
class, also while reviews wait. -/
theorem Run.links_le_units [Limiter L] {w : Wiring} {b : Behaviour} {c : Chain L}
    (tracker : w.tracker = .queue) (chain : c.OnlyEnginesTrack classOf)
    (gives : b.Gives Answer.OfClass) {limiter : L} {line : RequestLine} {h : History L}
    {sys : System L}
    (run : Run w b c { moves := Move.Labels classOf, answers := Answer.OfClass }
      (.idle limiter line) h sys)
    (fresh : (sys.site.created.map (·.id)).Nodup) {id : PlannedId} {p : PlannedCapacity}
    (flying : sys.site.queue.inFlight.find? id = some p) :
    sys.site.queue.load id ≤ p.units.toNat ∧ ∀ item e,
      sys.site.queue.items.find? item = some e → e.link = some id →
        e.item.resource = p.resource := by
  have begins : Stage.Linked classOf { site := ({ limiter, line } : Site L) } := by
    refine ⟨⟨nofun, nofun, nofun, fun _ => ⟨?_, nofun, nofun⟩⟩, nofun⟩
    rintro r p ⟨id, e, found, -⟩
    cases found
  obtain ⟨f, linked, shows', -⟩ :=
    run.keeps (fun _ _ step => step.linked tracker chain) begins gives
  have site : sys.site.Linked classOf := shows'.site ▸ linked.site
  have bears := site.bears fresh
  have known := site.flying p (Table.mem_values.2 ⟨id, flying⟩)
  obtain rfl : p.id = id := site.keyed id p flying
  exact ⟨bears.load p known, fun item e found linked =>
    bears.resource p known _ ⟨item, e, found, rfl, linked⟩⟩

theorem Sample.gives_ofClass : Sample.behaviour.Gives Answer.OfClass := by
  intro calls created q a said
  rw [Sample.respond_eq said]
  intro p mem
  rw [List.mem_singleton.1 mem]

/-- After the refusal one unit is in flight, and one of the two items is linked to it. -/
theorem links_of_sample : ∃ h sys, Run Sample.wiring Sample.behaviour Sample.chain
    { moves := Move.Labels fun _ => .unlabeled, answers := Answer.OfClass } Sample.start h sys ∧
    (sys.site.created.map (·.id)).Nodup ∧ ∃ p, sys.site.queue.inFlight.find? p.id = some p ∧
      p.units = 1 ∧ sys.site.queue.load p.id = 1 ∧ sys.site.queue.load p.id ≤ p.units.toNat := by
  obtain ⟨h, sys, done, fresh, flying, load⟩ : ∃ h sys, Sample.start.replay Sample.wiring
      Sample.behaviour Sample.chain Sample.refusal [] = some (h, sys) ∧
      (sys.site.created.map (·.id)).Nodup ∧
      sys.site.queue.inFlight.find? (.fresh 0) = some ⟨.fresh 0, .ofNat 1, .unlabeled, 1⟩ ∧
      sys.site.queue.load (.fresh 0) = 1 := ⟨_, _, rfl, by decide, by decide, by decide⟩
  have run := Run.of_replay done .start (Sample.allowed
    { moves := Move.Labels fun _ => .unlabeled, answers := Answer.OfClass }
    (fun _ => rfl) (fun _ _ => trivial))
  have borne := Run.links_le_units rfl (Sample.plain.onlyEnginesTrack _) Sample.gives_ofClass run
    fresh flying
  exact ⟨h, sys, run, fresh, ⟨.fresh 0, .ofNat 1, .unlabeled, 1⟩, flying, rfl, load, borne.1⟩

end Muster
