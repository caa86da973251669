import Muster.Proofs.Precedence

/-!
# Links that count

Whether a link counts is nowhere written down: it is read off what is in flight. So operations that
do not name an item can make its link count or stop counting, and those that look for an item
without a link must not take one whose link counts.

A link that counts stays. Only four operations part an item from its capacity: the item is
cancelled, it runs, it is submitted anew, or the capacity comes online. Whichever it is, the item
has no link at all next, so it is never taken from one capacity in flight to another.

**Main statements.** `Bound.apply`, the step; `bound_until_parted`, for any number of operations.
-/

namespace Muster

namespace Queue

/-- The item is in the queue and linked to the capacity, which is in flight. -/
structure Bound (q : Queue) (id : WorkItemId) (p : PlannedId) : Prop where
  linked : q.linkOf id = some p
  flying : q.inFlight.contains p = true

/-- The operation takes the item out of the queue, replaces it, or brings the capacity online. -/
def Op.Parts (q : Queue) (id : WorkItemId) (p : PlannedId) : Op → Prop
  | submit item | submitBuildable item => item.id = id
  | cancel id' => id' = id
  | assign id' => id' = id ∧ ∃ q', q.assign id' = .ok q'
  | online p' => p' = p
  | makeBuildable _ | track _ | recordPending _ => False

variable {q q' : Queue} {id id' : WorkItemId} {p p' : PlannedId} {e : QueuedItem} {op : Op}

/-! ## Links of items -/

theorem linkOf_insert_self {items : Table WorkItemId QueuedItem} (h : q.items = items.insert id e) :
    q.linkOf id = e.link :=
  (linkOf_insert h id).trans (if_pos rfl)

theorem linkOf_insert_of_ne (h : q'.items = q.items.insert id' e) (other : id' ≠ id) :
    q'.linkOf id = q.linkOf id :=
  (linkOf_insert h id).trans (if_neg other.symm)

theorem linkOf_erase_self {items : Table WorkItemId QueuedItem} (h : q.items = items.erase id) :
    q.linkOf id = none :=
  (linkOf_erase h id).trans (if_pos rfl)

theorem linkOf_erase_of_ne (h : q'.items = q.items.erase id') (other : id' ≠ id) :
    q'.linkOf id = q.linkOf id :=
  (linkOf_erase h id).trans (if_neg other.symm)

/-- Items keep their links, apart from those to capacity that comes online. -/
theorem linkOf_online (landed : q.online p = .ok q') (id : WorkItemId) :
    q'.linkOf id = (q.linkOf id).filter (· ≠ p) := by
  simp only [linkOf, online_items landed, Table.find?_mapValues]
  cases q.items.find? id with
  | none => rfl
  | some e =>
    simp only [Option.map_some, Option.bind_some]
    by_cases linked : e.link = some p
    · simp [linked, Option.filter_some]
    · rw [if_neg linked]
      cases link : e.link with
      | none => rfl
      | some p' =>
        have other : p' ≠ p := fun same => linked (link.trans (congrArg some same))
        simp [other, Option.filter_some]

theorem linkOf_withBuildable (q : Queue) (id' id : WorkItemId) :
    (q.withBuildable id').linkOf id = q.linkOf id := by
  rcases q.withBuildable_items id' with same | ⟨e, found, ready⟩
  · rw [same]
  · rw [ready]
    by_cases own : id' = id
    · subst own
      rw [linkOf_of_find? found]
      exact linkOf_insert_self (e := { e with state := .buildable }) rfl
    · exact linkOf_insert_of_ne rfl own

theorem linkOf_submit_self (q : Queue) (item : WorkItem) :
    (q.submit item).linkOf item.id = none :=
  linkOf_insert_self (e := ⟨item, .waiting, none⟩) rfl

/-- A link is handed on to an item that is in the queue and whose link does not count. -/
theorem linkOf_bequeath (filed : q.Filed) (r : ResourceClass) (p : PlannedId) (id : WorkItemId) :
    (q.bequeath r p).linkOf id = q.linkOf id ∨
      ∃ e, q.items.find? id = some e ∧ q.live e.link = none := by
  rw [filed.bequeath_eq]
  cases found : q.heir? r with
  | none => exact .inl rfl
  | some e =>
    obtain ⟨-, here, free⟩ := filed.heir found
    by_cases own : e.item.id = id
    · exact .inr ⟨e, own ▸ here, free⟩
    · exact .inl (linkOf_insert_of_ne rfl own)

namespace Bound

theorem find? (h : q.Bound id p) : ∃ e, q.items.find? id = some e ∧ e.link = some p :=
  Option.bind_eq_some_iff.1 h.linked

theorem live (h : q.Bound id p) : q.live (some p) = some p := by
  simp only [Queue.live, Option.filter_some, h.flying, if_true]

/-- Capacity that is in flight can come online. -/
theorem online (h : q.Bound id p) : ∃ q', q.online p = .ok q' := by
  obtain ⟨c, here⟩ := Option.isSome_iff_exists.1 h.flying
  simp only [Queue.online, here]
  exact ⟨_, rfl⟩

/-! ## One operation -/

/-- An item whose link counts can be linked to its own capacity again, but to no other. -/
theorem track_eq (h : q.Bound id p) (p' : PlannedId) : q.track ⟨id, p'⟩ =
    if p ≠ p' then .error (.alreadyLinked id p)
    else .ok { q with items := q.items.modify id fun e => { e with link := some p' } } := by
  obtain ⟨e, found, linked⟩ := h.find?
  simp only [track, found, linked, h.live, Table.modify_eq_insert found]

theorem withBuildable (h : q.Bound id p) (id' : WorkItemId) : (q.withBuildable id').Bound id p := by
  refine ⟨(linkOf_withBuildable q id' id).trans h.linked, ?_⟩
  rw [(q.withBuildable_same id').inFlight]
  exact h.flying

/-- Somebody else runs. -/
theorem assign (h : q.Bound id p) (filed : q.Filed) (other : id' ≠ id)
    (ran : q.assign id' = .ok q') : q'.Bound id p := by
  obtain ⟨e, -, -, -, done⟩ := assign_ok ran
  have spent : (q.spend id' e).Bound id p :=
    ⟨(linkOf_erase_of_ne (q := q) rfl other).trans h.linked, h.flying⟩
  rcases done with ⟨-, rfl⟩ | ⟨handed, -, rfl⟩
  · exact spent
  · have rest : (q.spend id' e).Filed := filed.erase rfl
    refine ⟨?_, by rw [(bequeath_same _ _ _).inFlight]; exact h.flying⟩
    rcases linkOf_bequeath rest e.item.resource handed id with same | ⟨heir, found, free⟩
    · exact same.trans spent.linked
    · -- The heir is somebody else, since the link of this item counts.
      obtain ⟨own, here, linked⟩ := spent.find?
      cases found.symm.trans here
      rw [linked, spent.live] at free
      cases free

/-- A link that counts stays, unless the operation parts the item from its capacity. -/
theorem apply (h : q.Bound id p) (filed : q.Filed) (stays : ¬ op.Parts q id p) :
    (op.apply q).Bound id p := by
  have done := op.does q
  generalize op.apply q = q' at done ⊢
  cases done with
  | submit item => exact ⟨(linkOf_insert_of_ne (q := q) rfl stays).trans h.linked, h.flying⟩
  | submitBuildable item =>
    have submitted : (q.submit item).linkOf id = some p :=
      (linkOf_insert_of_ne (q := q) rfl stays).trans h.linked
    exact withBuildable ⟨submitted, h.flying⟩ item.id
  | makeBuildable id' => exact h.withBuildable id'
  | cancel gone =>
    rw [cancel_some gone]
    exact ⟨(linkOf_erase_of_ne (q := q) rfl stays).trans h.linked, h.flying⟩
  | @track link _ tracked =>
    obtain ⟨e, found, rfl⟩ := track_ok tracked
    refine ⟨?_, h.flying⟩
    by_cases own : link.item = id
    · subst own
      have same : p = link.planned := by
        refine not_not.1 fun other => ?_
        rw [h.track_eq link.planned, if_pos other] at tracked
        cases tracked
      rw [linkOf_insert_self rfl, same]
    · exact (linkOf_insert_of_ne (q := q) rfl own).trans h.linked
  | recordPending planned =>
    exact ⟨h.linked, (PlannedCapacity.contains_store planned q.inFlight p).2 (.inl h.flying)⟩
  | @online p' _ landed =>
    obtain ⟨_, lands⟩ := online_lands landed
    have other : p ≠ p' := fun same => stays same.symm
    constructor
    · rw [linkOf_online landed, h.linked]
      simp [other]
    · rw [lands.inFlight, Table.contains, Table.find?_erase, if_neg other]
      exact h.flying
  | assign ran => exact h.assign filed (fun own => stays ⟨own, _, ran⟩) ran
  | refused => exact h

/-- Whatever parts an item from its capacity leaves it without any link. -/
theorem linkOf_parted (h : q.Bound id p) (filed : q.Filed) (parts : op.Parts q id p) :
    (op.apply q).linkOf id = none := by
  cases op with
  | submit item => exact parts ▸ linkOf_submit_self q item
  | submitBuildable item =>
    exact (linkOf_withBuildable _ _ _).trans (parts ▸ linkOf_submit_self q item)
  | cancel id' =>
    obtain ⟨e, found, -⟩ := h.find?
    obtain rfl : id' = id := parts
    have here : q.items.contains id' = true := by
      simp only [Table.contains, found, Option.isSome_some]
    simp only [Op.apply, cancel, if_pos here, Option.getD_some]
    exact linkOf_erase_self rfl
  | assign id' =>
    obtain ⟨rfl, q', ran⟩ := parts
    obtain ⟨e, -, -, -, done⟩ := assign_ok ran
    have gone : (q.spend id' e).linkOf id' = none := linkOf_erase_self rfl
    simp only [Op.apply, ran, orStay]
    rcases done with ⟨-, rfl⟩ | ⟨handed, -, rfl⟩
    · exact gone
    · have rest : (q.spend id' e).Filed := filed.erase rfl
      rcases linkOf_bequeath rest e.item.resource handed id' with same | ⟨heir, found, -⟩
      · exact same.trans gone
      · exact absurd rfl (Table.find?_of_erase found).1
  | online p' =>
    obtain rfl : p' = p := parts
    obtain ⟨q', landed⟩ := h.online
    simp only [Op.apply, landed, orStay]
    rw [linkOf_online landed, h.linked]
    simp [Option.filter_some]
  | makeBuildable _ | track _ | recordPending _ => exact parts.elim

/-! ## Any number of operations -/

/-- A link that counts stays until an operation parts the item from its capacity. -/
theorem run (h : q.Bound id p) (filed : q.Filed) (ops : List Op) : (q.run ops).Bound id p ∨
    ∃ before op after, ops = before ++ op :: after ∧ (q.run before).Bound id p ∧
      op.Parts (q.run before) id p ∧ (op.apply (q.run before)).linkOf id = none := by
  induction ops generalizing q with
  | nil => exact .inl h
  | cons op ops ih =>
    by_cases parts : op.Parts q id p
    · exact .inr ⟨[], op, ops, rfl, h, parts, h.linkOf_parted filed parts⟩
    · rcases ih (h.apply filed parts) (filed.apply op) with still | ⟨before, op', after, rfl, done⟩
      · exact .inl still
      · exact .inr ⟨op :: before, op', after, rfl, done⟩

end Bound

/-- The item stays linked to the capacity, and to no other, until it is parted from it. -/
structure Steady (q : Queue) (id : WorkItemId) (p : PlannedId) : Prop where
  kept : ∀ op : Op, ¬ op.Parts q id p → (op.apply q).Bound id p
  refused : ∀ p', p' ≠ p → q.track ⟨id, p'⟩ = .error (.alreadyLinked id p)
  landed : ∃ q', q.online p = .ok q' ∧ ∀ id', q'.linkOf id' ≠ some p
  parted : ∀ op : Op, op.Parts q id p → (op.apply q).linkOf id = none
  /-- Before it is linked to other capacity, the item is parted from this one and has no link. -/
  lasting : ∀ later, (q.run later).Bound id p ∨
    ∃ before op after, later = before ++ op :: after ∧ (q.run before).Bound id p ∧
      op.Parts (q.run before) id p ∧ (op.apply (q.run before)).linkOf id = none

/-- Whatever operations there were: an item whose link counts keeps it until it is cancelled or
runs or is submitted anew, or the capacity comes online. Links to other capacity are refused, and
nobody is linked to capacity that has come online. -/
theorem bound_until_parted (ops : List Op) (id : WorkItemId) (p : PlannedId)
    (h : (empty.run ops).Bound id p) : (empty.run ops).Steady id p := by
  have filed : (empty.run ops).Filed := Reached.filed ⟨ops, rfl⟩
  constructor
  case kept => exact fun op stays => h.apply filed stays
  case refused => exact fun p' other => (h.track_eq p').trans (if_pos other.symm)
  case landed =>
    obtain ⟨q', landed⟩ := h.online
    refine ⟨q', landed, fun id' linked => ?_⟩
    rw [linkOf_online landed] at linked
    simpa using (Option.filter_eq_some_iff.1 linked).2
  case parted => exact fun op parts => h.linkOf_parted filed parts
  case lasting => exact h.run filed

/-- Two items and two capacities in flight. One of the items is linked to one of them. -/
def linkedOps : List Op := [
  .submitBuildable (Sample.item 1), .submit (Sample.item 2),
  .recordPending [⟨.ofNat 1, .ofNat 1, .unlabeled, 1⟩, ⟨.ofNat 2, .ofNat 1, .unlabeled, 1⟩],
  .track ⟨.ofNat 1, .ofNat 2⟩]

theorem steady_of_linkedOps : (empty.run linkedOps).Bound (.ofNat 1) (.ofNat 2) ∧
    (empty.run linkedOps).Steady (.ofNat 1) (.ofNat 2) := by
  have bound : (empty.run linkedOps).Bound (.ofNat 1) (.ofNat 2) := ⟨by decide, by decide⟩
  exact ⟨bound, bound_until_parted linkedOps (.ofNat 1) (.ofNat 2) bound⟩

end Queue

end Muster
