import Muster.Proofs.Conservation

/-!
# Links of a queue

Items are linked to capacity, whether it is in flight or not. Links are overwritten, handed on and
dropped by almost every operation, and only `track` adds one. All other operations shed links, or
hand one on to an item of the same class. So no capacity is linked to more items than before.

**Main statements.** `Op.gains` and `run_gains`: operations add no links but those that they report.
-/

namespace Muster

/-- Items come back in the class they had. -/
def Queue.Op.Labels (classOf : WorkItemId → ResourceClass) : Op → Prop
  | submit item | submitBuildable item => item.resource = classOf item.id
  | _ => True

namespace Queue

/-- How many items are linked to a capacity. -/
def load (q : Queue) (p : PlannedId) : Nat := q.items.values.countP (·.link == some p)

/-- An item of the class is linked to the capacity. -/
def LinksTo (q : Queue) (r : ResourceClass) (p : PlannedId) : Prop :=
  ∃ id e, q.items.find? id = some e ∧ e.item.resource = r ∧ e.link = some p

/-- Items are kept under their identifiers, which say their classes. -/
def Classed (classOf : WorkItemId → ResourceClass) (q : Queue) : Prop :=
  ∀ id e, q.items.find? id = some e → e.item.id = id ∧ e.item.resource = classOf id

/-- The classes of the items in the queue. -/
def classOf (q : Queue) (id : WorkItemId) : ResourceClass :=
  ((q.items.find? id).map (·.item.resource)).getD .unlabeled

theorem classed_classOf {q : Queue} (own : ∀ id e, q.items.find? id = some e → e.item.id = id) :
    q.Classed q.classOf := by
  intro id e found
  refine ⟨own id e found, ?_⟩
  simp only [classOf, found]
  rfl

variable {q q' q'' : Queue} {classOf : WorkItemId → ResourceClass} {new new' : List Link}
  {id : WorkItemId} {e e' : QueuedItem}

/-! ## Links of items -/

theorem linkOf_of_find? (found : q.items.find? id = some e) : q.linkOf id = e.link := by
  simp only [linkOf, found, Option.bind_some]

theorem linkOf_insert {items : Table WorkItemId QueuedItem} (h : q.items = items.insert id e)
    (id' : WorkItemId) :
    q.linkOf id' = if id' = id then e.link else (items.find? id').bind (·.link) := by
  simp only [linkOf, h, Table.find?_insert]
  split <;> rfl

theorem linkOf_erase {items : Table WorkItemId QueuedItem} (h : q.items = items.erase id)
    (id' : WorkItemId) :
    q.linkOf id' = if id' = id then none else (items.find? id').bind (·.link) := by
  simp only [linkOf, h, Table.find?_erase]
  split <;> rfl

/-! ## Links of a queue -/

theorem load_eq (q : Queue) (p : PlannedId) :
    q.load p = q.items.sumOf fun _ e => if e.link = some p then 1 else 0 := by
  simp [load, Table.countP_values]

theorem load_insert_le (items : q'.items = q.items.insert id e) (p : PlannedId) :
    q'.load p ≤ q.load p + if e.link = some p then 1 else 0 := by
  rw [load_eq, load_eq, items, Nat.add_comm]
  exact Table.sumOf_insert_le _ _ _ _

theorem load_replace (found : q.items.find? id = some e) (items : q'.items = q.items.insert id e')
    (p : PlannedId) : q'.load p + (if e.link = some p then 1 else 0) =
      q.load p + if e'.link = some p then 1 else 0 := by
  rw [load_eq, load_eq, items]
  exact Table.sumOf_replace found e' _

theorem load_erase (found : q.items.find? id = some e) (items : q'.items = q.items.erase id)
    (p : PlannedId) : q.load p = q'.load p + if e.link = some p then 1 else 0 := by
  rw [load_eq, load_eq, items, Nat.add_comm]
  exact Table.sumOf_of_find? found _

theorem load_eq_zero {p : PlannedId} (none : ∀ r, ¬ q.LinksTo r p) : q.load p = 0 := by
  refine List.countP_eq_zero.2 fun e mem linked => ?_
  obtain ⟨id, found⟩ := Table.mem_values.1 mem
  exact none e.item.resource ⟨id, e, found, rfl, by simpa using linked⟩

/-! ## Changes of links -/

/-- The links of a queue are those of another queue, if not fewer, and some new ones. -/
structure Gains (classOf : WorkItemId → ResourceClass) (links : List Link) (q q' : Queue) :
    Prop where
  load : ∀ p, q'.load p ≤ q.load p + links.countP (·.planned == p)
  linked : ∀ r p, q'.LinksTo r p →
    q.LinksTo r p ∨ ∃ link ∈ links, classOf link.item = r ∧ link.planned = p

namespace Gains

theorem refl (q : Queue) : q.Gains classOf new q :=
  ⟨fun _ => Nat.le_add_right _ _, fun _ _ => .inl⟩

/-- Whatever leaves the items alone leaves the links alone. -/
theorem of_items (same : q'.items = q.items) : q.Gains classOf new q' := by
  have load : ∀ p, q'.load p = q.load p := fun p => by simp [Queue.load, same]
  refine ⟨fun p => load p ▸ Nat.le_add_right _ _, ?_⟩
  rintro r p ⟨id, e, found, rest⟩
  exact .inl ⟨id, e, same ▸ found, rest⟩

theorem trans (h : q.Gains classOf new q') (h' : q'.Gains classOf new' q'') :
    q.Gains classOf (new ++ new') q'' := by
  constructor
  · intro p
    have first := h.load p
    have second := h'.load p
    rw [List.countP_append]
    omega
  · intro r p linked
    rcases h'.linked r p linked with before | ⟨link, mem, here⟩
    · refine (h.linked r p before).imp_right ?_
      rintro ⟨link, mem, here⟩
      exact ⟨link, List.mem_append_left _ mem, here⟩
    · exact .inr ⟨link, List.mem_append_right _ mem, here⟩

theorem erase (items : q'.items = q.items.erase id) : q.Gains classOf [] q' := by
  constructor
  · intro p
    rw [load_eq, load_eq, items]
    exact Table.sumOf_erase_le _ _ _
  · rintro r p ⟨id', e, found, rest⟩
    rw [items] at found
    exact .inl ⟨id', e, (Table.find?_of_erase found).2, rest⟩

/-- An item is put into the queue whose link, if it has one, is that of the item it replaces or a
new one. -/
theorem put (items : q'.items = q.items.insert id e')
    (link : ∀ p, e'.link = some p →
      (∃ e, q.items.find? id = some e ∧ e.item.resource = e'.item.resource ∧ e.link = some p) ∨
      ∃ link ∈ new, classOf link.item = e'.item.resource ∧ link.planned = p) :
    q.Gains classOf new q' := by
  constructor
  · intro p
    have added := load_insert_le items p
    by_cases linked : e'.link = some p
    · rcases link p linked with ⟨e, found, -, before⟩ | ⟨link, mem, -, here⟩
      · have replaced := load_replace found items p
        rw [if_pos before, if_pos linked] at replaced
        omega
      · have reported : 0 < new.countP (·.planned == p) :=
          List.countP_pos_iff.2 ⟨link, mem, by simp [here]⟩
        rw [if_pos linked] at added
        omega
    · rw [if_neg linked] at added
      omega
  · rintro r p ⟨id', e, found, rfl, linked⟩
    rw [items] at found
    rcases Table.find?_insert_cases found with ⟨rfl, rfl⟩ | ⟨-, old⟩
    · refine (link p linked).imp_left ?_
      rintro ⟨e₀, old, same, before⟩
      exact ⟨id', e₀, old, same, before⟩
    · exact .inl ⟨id', e, old, rfl, linked⟩

/-- Links may be dropped from any number of items. -/
theorem drop {f : WorkItemId → QueuedItem → QueuedItem} (items : q'.items = q.items.mapValues f)
    (item : ∀ id e, (f id e).item = e.item)
    (link : ∀ id e p, (f id e).link = some p → e.link = some p) : q.Gains classOf [] q' := by
  constructor
  · intro p
    rw [load_eq, load_eq, items, Table.sumOf_mapValues, List.countP_nil, Nat.add_zero]
    refine Table.sumOf_le fun id e => ?_
    by_cases linked : (f id e).link = some p
    · rw [if_pos linked, if_pos (link id e p linked)]
    · rw [if_neg linked]
      exact Nat.zero_le _
  · rintro r p ⟨id, _, found, rfl, linked⟩
    rw [items, Table.find?_mapValues] at found
    obtain ⟨e, here, rfl⟩ := Option.map_eq_some_iff.1 found
    exact .inl ⟨id, e, here, congrArg _ (item id e).symm, link id e p linked⟩

end Gains

/-! ## Handing a link on -/

theorem mem_first? {l : List QueuedItem} (h : first? l = some e) : e ∈ l := by
  induction l generalizing e with
  | nil => cases h
  | cons x rest ih =>
    simp only [first?] at h
    split at h
    · cases h
      exact List.mem_cons_self
    · rename_i f found
      split at h
      · cases h
        exact List.mem_cons_of_mem _ (ih found)
      · cases h
        exact List.mem_cons_self

/-- A link is handed on to an item of the class, or to nobody. -/
theorem bequeath_cases (classed : q.Classed classOf) (r : ResourceClass) (p : PlannedId) :
    q.bequeath r p = q ∨ ∃ id e, q.items.find? id = some e ∧ e.item.resource = r ∧
      q.bequeath r p = { q with items := q.items.insert id { e with link := some p } } := by
  simp only [bequeath]
  cases heir : q.heir? r with
  | none => exact .inl rfl
  | some e =>
    have listed := (List.mem_filter.1 (List.mem_filter.1 (mem_first? heir)).1)
    obtain ⟨id, found⟩ := Table.mem_values.1 listed.1
    have own := (classed id e found).1
    subst own
    refine .inr ⟨e.item.id, e, found, ?_, by simp only [Table.modify_eq_insert found]⟩
    simpa using (Bool.and_eq_true_iff.1 listed.2).2

/-! ## Classes of items -/

namespace Classed

theorem insert (h : q.Classed classOf) (items : q'.items = q.items.insert id e)
    (own : e.item.id = id) (resource : e.item.resource = classOf id) : q'.Classed classOf := by
  intro id' e' found
  rw [items] at found
  rcases Table.find?_insert_cases found with ⟨rfl, rfl⟩ | ⟨-, old⟩
  · exact ⟨own, resource⟩
  · exact h id' e' old

theorem replace (h : q.Classed classOf) (found : q.items.find? id = some e)
    (items : q'.items = q.items.insert id e') (item : e'.item = e.item) : q'.Classed classOf := by
  obtain ⟨own, resource⟩ := h id e found
  exact h.insert items (item ▸ own) (item ▸ resource)

theorem erase (h : q.Classed classOf) (items : q'.items = q.items.erase id) :
    q'.Classed classOf := by
  intro id' e found
  rw [items] at found
  exact h id' e (Table.find?_of_erase found).2

theorem bequeath (h : q.Classed classOf) (r : ResourceClass) (p : PlannedId) :
    (q.bequeath r p).Classed classOf := by
  rcases bequeath_cases h r p with same | ⟨id, e, found, -, handed⟩
  · rw [same]
    exact h
  · rw [handed]
    exact h.replace found rfl rfl

end Classed

/-! ## Operations -/

/-- The link that an operation reports. -/
def Op.links : Op → List Link
  | track link => [link]
  | _ => []

theorem withBuildable_items (q : Queue) (id : WorkItemId) : q.withBuildable id = q ∨
    ∃ e, q.items.find? id = some e ∧
      q.withBuildable id =
        { q with items := q.items.insert id { e with state := .buildable } } := by
  simp only [withBuildable]
  cases h : q.makeBuildable id with
  | error e => exact .inl rfl
  | ok x =>
    obtain ⟨q', ready⟩ := x
    obtain ⟨e, found, ⟨-, rfl⟩ | rfl⟩ := makeBuildable_ok h
    · exact .inl rfl
    · exact .inr ⟨e, found, rfl⟩

theorem withBuildable_gains (q : Queue) (id : WorkItemId) :
    q.Gains classOf [] (q.withBuildable id) := by
  rcases q.withBuildable_items id with same | ⟨e, found, ready⟩
  · rw [same]
    exact .refl q
  · rw [ready]
    exact .put rfl fun p linked => .inl ⟨e, found, rfl, linked⟩

theorem Classed.withBuildable (h : q.Classed classOf) (id : WorkItemId) :
    (q.withBuildable id).Classed classOf := by
  rcases q.withBuildable_items id with same | ⟨e, found, ready⟩
  · rw [same]
    exact h
  · rw [ready]
    exact h.replace found rfl rfl

theorem submit_gains (q : Queue) (item : WorkItem) : q.Gains classOf [] (q.submit item) :=
  .put rfl fun _ linked => nomatch linked

theorem Classed.submit (h : q.Classed classOf) {item : WorkItem}
    (label : item.resource = classOf item.id) : (q.submit item).Classed classOf :=
  h.insert rfl rfl label

theorem online_items {p : PlannedId} (h : q.online p = .ok q') :
    q'.items = q.items.mapValues fun _ e =>
      if e.link = some p then { e with link := none } else e := by
  simp only [online] at h
  split at h <;> cases h
  rfl

/-- The item that runs gives its link away, or takes it along. -/
theorem assign_gains (classed : q.Classed classOf) (h : q.assign id = .ok q') :
    q.Gains classOf [] q' := by
  obtain ⟨e, found, -, -, ⟨-, rfl⟩ | ⟨p, live, rfl⟩⟩ := assign_ok h
  · exact .erase rfl
  · have linked : e.link = some p := (Option.filter_eq_some_iff.1 live).1
    have spent : q.Gains classOf [] (q.spend id e) := .erase rfl
    have rest : (q.spend id e).Classed classOf := classed.erase rfl
    rcases bequeath_cases rest e.item.resource p with same | ⟨id', e', found', resource, handed⟩
    · rw [same]
      exact spent
    · rw [handed]
      constructor
      · intro p'
        have less : q.load p' = (q.spend id e).load p' + _ := load_erase found rfl p'
        have more : load { q.spend id e with
            items := (q.spend id e).items.insert id' { e' with link := some p } } p' ≤
          (q.spend id e).load p' + _ := load_insert_le rfl p'
        rw [linked] at less
        exact less ▸ more
      · rintro r p' ⟨id₀, e₀, found₀, rfl, linked₀⟩
        rcases Table.find?_insert_cases found₀ with ⟨rfl, rfl⟩ | ⟨-, old⟩
        · cases linked₀
          exact .inl ⟨id, e, found, resource.symm, linked⟩
        · exact spent.linked _ _ ⟨id₀, e₀, old, rfl, linked₀⟩

theorem Classed.assign (classed : q.Classed classOf) (h : q.assign id = .ok q') :
    q'.Classed classOf := by
  obtain ⟨e, -, -, -, ⟨-, rfl⟩ | ⟨p, -, rfl⟩⟩ := assign_ok h
  · exact classed.erase rfl
  · exact Classed.bequeath (q := q.spend id e) (classed.erase rfl) e.item.resource p

namespace Op

/-- An operation adds no links but those that it reports. -/
theorem gains (op : Op) (classed : q.Classed classOf) : q.Gains classOf op.links (op.apply q) := by
  have done := op.does q
  generalize op.apply q = q' at done ⊢
  cases done with
  | submit item => exact q.submit_gains item
  | submitBuildable item =>
    exact (q.submit_gains item).trans ((q.submit item).withBuildable_gains item.id)
  | makeBuildable id => exact q.withBuildable_gains id
  | @cancel id _ gone =>
    obtain rfl := cancel_some gone
    exact .erase (show Queue.items _ = q.items.erase id from rfl)
  | @track link _ tracked =>
    obtain ⟨e, found, rfl⟩ := track_ok tracked
    refine .put rfl fun p linked => .inr ⟨link, List.mem_singleton_self link, ?_, ?_⟩
    · exact (classed link.item e found).2.symm
    · exact Option.some.inj linked
  | recordPending planned => exact .of_items rfl
  | online landed =>
    refine .drop (online_items landed) ?_ ?_
    · intro id' e
      split <;> rfl
    · intro id' e p linked
      split at linked
      · cases linked
      · exact linked
  | assign ran => exact assign_gains classed ran
  | refused no =>
    cases op with
    | cancel | track | online | assign => exact .of_items rfl
    | _ => exact no.elim

theorem classed_apply (op : Op) (labels : op.Labels classOf) (classed : q.Classed classOf) :
    (op.apply q).Classed classOf := by
  have done := op.does q
  generalize op.apply q = q' at done ⊢
  cases done with
  | submit item => exact classed.submit labels
  | submitBuildable item => exact (classed.submit labels).withBuildable item.id
  | makeBuildable id => exact classed.withBuildable id
  | cancel gone =>
    rw [cancel_some gone]
    exact classed.erase rfl
  | track tracked =>
    obtain ⟨e, found, rfl⟩ := track_ok tracked
    exact classed.replace found rfl rfl
  | recordPending planned => exact classed
  | online landed =>
    intro id' e' found
    rw [online_items landed, Table.find?_mapValues] at found
    obtain ⟨e, here, rfl⟩ := Option.map_eq_some_iff.1 found
    have same := classed id' e here
    split <;> exact same
  | assign ran => exact classed.assign ran
  | refused => exact classed

end Op

/-- Operations add no links but those that they report. -/
theorem run_gains {ops : List Op} (labels : ∀ op ∈ ops, op.Labels classOf)
    (classed : q.Classed classOf) : q.Gains classOf (ops.flatMap Op.links) (q.run ops) := by
  induction ops generalizing q with
  | nil => exact .refl q
  | cons op ops ih =>
    have next := op.classed_apply (labels op List.mem_cons_self) classed
    exact (op.gains classed).trans
      (ih (fun op mem => labels op (List.mem_cons_of_mem _ mem)) next)

/-- What is in flight was in flight or is put there by one of the operations. -/
theorem mem_inFlight_run {ops : List Op} {p : PlannedCapacity}
    (h : p ∈ (q.run ops).inFlight.values) :
    p ∈ q.inFlight.values ∨ ∃ op ∈ ops, p ∈ op.records := by
  induction ops generalizing q with
  | nil => exact .inl h
  | cons op ops ih =>
    rcases ih h with before | ⟨op', mem, here⟩
    · rcases Op.mem_inFlight_apply before with here | before
      · exact .inr ⟨op, List.mem_cons_self, here⟩
      · exact .inl before
    · exact .inr ⟨op', List.mem_cons_of_mem _ mem, here⟩

end Queue

end Muster
