import Muster.Proofs.Stage
import Muster.Proofs.Stock

/-!
# Without links and events

A bare queue has no links, and a bare review knows of none. A bare site has no links and no events
either. All operations of a queue do the same to a bare queue as to the queue itself, and what they
give back is the same: links only ever decide about links.

**Main statements.** `Queue.assign_bare` and its like for the queue; `Move.apply_bare` and
`Move.reply_bare` for all that others do to a site.
-/

namespace Muster

variable {L : Type}

/-! ## Queues -/

/-- An item without its link. -/
def QueuedItem.bare (e : QueuedItem) : QueuedItem := { e with link := none }

/-- An item without its link, as reviews see it. -/
def PendingItem.bare (p : PendingItem) : PendingItem := { p with planned := none }

namespace Queue

/-- A queue without links. -/
def bare (q : Queue) : Queue := { q with items := q.items.mapValues fun _ => QueuedItem.bare }

@[simp] theorem find?_bare (q : Queue) (id : WorkItemId) :
    q.bare.items.find? id = (q.items.find? id).map QueuedItem.bare :=
  Table.find?_mapValues _ _ _

/-- What is in flight does not depend on links. -/
theorem inFlight_of_bare {q q' : Queue} (h : q.bare = q'.bare) : q.inFlight = q'.inFlight := by
  have same : q.bare.inFlight = q'.bare.inFlight := congrArg Queue.inFlight h
  exact same

/-- A bare item stays bare where a bare item is put. -/
theorem bare_insert (q : Queue) (id : WorkItemId) (e : QueuedItem) :
    ({ q with items := q.items.insert id e } : Queue).bare =
      { q.bare with items := q.bare.items.insert id e.bare } := by
  simp only [bare, Table.mapValues_insert]

theorem submit_bare (q : Queue) (item : WorkItem) : q.bare.submit item = (q.submit item).bare :=
  (q.bare_insert item.id ⟨item, .waiting, none⟩).symm

theorem makeBuildable_bare (q : Queue) (id : WorkItemId) :
    q.bare.makeBuildable id = (q.makeBuildable id).map fun x => (x.1.bare, x.2) := by
  simp only [makeBuildable, find?_bare]
  cases q.items.find? id with
  | none => rfl
  | some e =>
    by_cases before : e.state = .buildable
    · simp [before, QueuedItem.bare, Except.map]
    · simp [before, QueuedItem.bare, Except.map, bare_insert]

theorem cancel_bare (q : Queue) (id : WorkItemId) :
    q.bare.cancel id = (q.cancel id).map bare := by
  simp only [cancel, Table.contains, find?_bare, Option.isSome_map]
  by_cases here : (q.items.find? id).isSome = true
  · simp [here, bare, Table.mapValues_erase]
  · simp [here]

/-- Whoever a link is handed on to, the rest of the queue is the same. -/
theorem bare_bequeath (q : Queue) (r : ResourceClass) (p : PlannedId) :
    (q.bequeath r p).bare = q.bare := by
  simp only [bequeath]
  cases q.heir? r with
  | none => rfl
  | some e =>
    have same : (q.items.modify e.item.id fun e => { e with link := some p }).mapValues
        (fun _ => QueuedItem.bare) = q.items.mapValues fun _ => QueuedItem.bare := by
      refine Table.ext_find? fun id => ?_
      by_cases here : id = e.item.id
      · subst here
        simp only [Table.find?_mapValues, Table.find?_modify, if_true, Option.map_map]
        rfl
      · simp [here]
    simp only [bare, same]

theorem assign_bare (q : Queue) (id : WorkItemId) :
    q.bare.assign id = (q.assign id).map bare := by
  simp only [assign, find?_bare]
  cases q.items.find? id with
  | none => rfl
  | some e =>
    have idle : q.bare.availableOf e.bare.item.resource = q.availableOf e.item.resource := rfl
    simp only [Option.map_some, idle]
    by_cases waits : e.state ≠ .buildable
    · rw [if_pos waits, if_pos (show e.bare.state ≠ .buildable from waits)]
      rfl
    · rw [if_neg waits, if_neg (show ¬ e.bare.state ≠ .buildable from waits)]
      by_cases empty : q.availableOf e.item.resource = 0
      · rw [if_pos empty, if_pos empty]
        rfl
      · rw [if_neg empty, if_neg empty]
        have spent : { q.bare with
              items := q.bare.items.erase id
              available := q.bare.available.insert e.item.resource
                (q.availableOf e.item.resource - 1) } = (q.spend id e).bare := by
          simp only [bare, spend, Table.mapValues_erase]
        cases q.live e.link with
        | none => exact congrArg _ spent
        | some p => exact congrArg _ (spent.trans ((q.spend id e).bare_bequeath _ p).symm)

theorem online_bare (q : Queue) (id : PlannedId) :
    q.bare.online id = (q.online id).map bare := by
  have flights : q.bare.inFlight = q.inFlight := rfl
  simp only [online, flights]
  cases q.inFlight.find? id with
  | none => rfl
  | some p =>
    have same : (q.items.mapValues fun _ e =>
          if e.link = some id then { e with link := none } else e).mapValues
            (fun _ => QueuedItem.bare) =
        (q.bare.items.mapValues fun _ e =>
          if e.link = some id then { e with link := none } else e) := by
      refine Table.ext_find? fun id' => ?_
      cases found : q.items.find? id' with
      | none => simp [found]
      | some e =>
        by_cases linked : e.link = some id <;> simp [found, linked, QueuedItem.bare]
    simp only [Except.map, bare, same]
    rfl

/-! ## Views -/

theorem buildable_bare (q : Queue) (r : ResourceClass) :
    q.bare.buildable r = (q.buildable r).map QueuedItem.bare := by
  simp only [buildable, bare, Table.values_mapValues, List.filter_map]
  rfl

theorem arrange_bare (l : List PendingItem) :
    arrange (l.map PendingItem.bare) = (arrange l).map PendingItem.bare :=
  arrange_map (f := PendingItem.bare) (fun _ => rfl) l

/-- A snapshot of a bare queue is the same but for the links. -/
theorem snapshot_bare (q : Queue) (r : ResourceClass) : q.bare.snapshot r =
    { q.snapshot r with items := (q.snapshot r).items.map PendingItem.bare } := by
  have items : (q.bare.buildable r).map (fun e => (⟨e.item, q.bare.live e.link⟩ : PendingItem)) =
      ((q.buildable r).map fun e => ⟨e.item, q.live e.link⟩).map PendingItem.bare := by
    rw [buildable_bare, List.map_map, List.map_map]
    rfl
  simp only [snapshot, items, arrange_bare]
  rfl

/-- The items of a snapshot, without links, do not depend on links and capacity. -/
theorem snapshot_items_congr {q q' : Queue} (h : q'.bare.items = q.bare.items)
    (r : ResourceClass) : (q'.snapshot r).items.map PendingItem.bare =
      (q.snapshot r).items.map PendingItem.bare := by
  have shown : ∀ q : Queue, (q.snapshot r).items.map PendingItem.bare =
      arrange ((q.bare.buildable r).map fun e => ⟨e.item, none⟩) := by
    intro q
    rw [buildable_bare, List.map_map, snapshot, ← arrange_bare, List.map_map]
    rfl
  rw [shown, shown, buildable, buildable, h]

theorem pendingClasses_bare (q : Queue) : q.bare.pendingClasses = q.pendingClasses := by
  simp only [pendingClasses, bare, Table.values_mapValues, List.filter_map, List.foldl_map]
  rfl

end Queue

/-! ## What a review knows -/

/-- Demand for a class without the links of its items. -/
def ClassDemand.bare (d : ClassDemand) : ClassDemand :=
  { d with items := d.items.map PendingItem.bare }

namespace ReviewState

/-- What a review knows, without links. -/
def bare (st : ReviewState) : ReviewState :=
  { st with classes := st.classes.mapValues fun _ => ClassDemand.bare }

/-- Links do not count as demand. -/
theorem unsatisfied_bare (st : ReviewState) (r : ResourceClass) :
    st.bare.unsatisfied r = st.unsatisfied r := by
  simp only [unsatisfied, bare, Table.find?_mapValues]
  cases st.classes.find? r <;> rfl

theorem remainingLimit_bare (st : ReviewState) (slot : Slot) (limit : Count) :
    st.bare.remainingLimit slot limit =
      ((st.remainingLimit slot limit).1, (st.remainingLimit slot limit).2.bare) := rfl

/-- Which items get links makes no difference to anything else. -/
theorem recordPlanned_bare (st : ReviewState) (r : ResourceClass) (p : ProviderId)
    (planned : List PlannedCapacity) :
    (st.bare.recordPlanned r p planned).2.bare = (st.recordPlanned r p planned).2.bare := by
  have items : ∀ (units : List (PlannedId × Nat)) (items : List PendingItem),
      (linkUnits units items).1.map PendingItem.bare = items.map PendingItem.bare := by
    intro units items
    have same := congrArg (List.map fun item => (⟨item, none⟩ : PendingItem))
      (items_linkUnits units items)
    rw [List.map_map, List.map_map] at same
    exact same
  simp only [recordPlanned, bare, Table.find?_mapValues]
  cases st.classes.find? r with
  | none =>
    simp only [Option.map_none, Table.mapValues_mapValues, ClassDemand.bare, List.map_map]
    rfl
  | some d =>
    simp only [Option.map_some, Table.mapValues_insert, Table.mapValues_mapValues, ClassDemand.bare,
      items, List.map_map]
    rfl

end ReviewState

/-! ## Sites -/

/-- The wiring with a tracker and a sink that do nothing. -/
def Wiring.bare (w : Wiring) : Wiring := { w with tracker := .failing, sink := .silent }

namespace Site

/-- A site without links and events. -/
def bare (s : Site L) : Site L := { s with queue := s.queue.bare, links := [], journal := [] }

variable {w : Wiring} {b : Behaviour}

@[simp] theorem bare_emit (w : Wiring) (e : Event) (s : Site L) : (s.emit w e).bare = s.bare := by
  simp only [emit]
  split <;> rfl

theorem request_bare (r : ResourceClass) (source : ReviewSource) (item : Option WorkItemId)
    (s : Site L) : s.bare.request w.bare r source item =
      (s.request w r source item).map id bare := by
  have line : s.bare.line = s.line := rfl
  have fastPath : w.bare.fastPath = w.fastPath := rfl
  simp only [request, line, fastPath]
  rcases s.line.request w.fastPath r source item with ⟨outcome, event, line⟩
  cases event with
  | none => rfl
  | some e =>
    simp only [Prod.map, bare_emit]
    rfl

theorem announceTo_bare (filter : Filter) (item : WorkItem) (ps : Registry) (s : Site L) :
    s.bare.announceTo w.bare b filter item ps =
      (s.announceTo w b filter item ps).map id bare := by
  induction ps generalizing s with
  | nil => rfl
  | cons p rest ih =>
    simp only [announceTo]
    by_cases pass : (p.serves item.resource && filter p item.resource) = true
    · rw [if_pos pass, if_pos pass]
      have asked : s.bare.askHeadroom b none p item.resource 0 =
        (s.askHeadroom b none p item.resource 0).map id bare := rfl
      rw [asked]
      rcases s.askHeadroom b none p item.resource 0 with ⟨answer, s₁⟩
      cases answer with
      | error e => exact ih s₁
      | ok yes =>
        cases yes with
        | false => exact ih s₁
        | true => simp only [Prod.map, id_eq, request_bare]
    · rw [if_neg pass, if_neg pass]
      exact ih s

theorem notify_bare (item : WorkItem) (s : Site L) :
    s.bare.notify w.bare b item = (s.notify w b item).bare := by
  have trigger : w.bare.trigger = w.trigger := rfl
  simp only [notify, announce, trigger]
  cases w.trigger with
  | none => rfl
  | some t =>
    by_cases on : t.enabled = true
    · simp only [if_pos on, announceTo_bare, Prod.map]
    · simp only [if_neg on]

theorem makeBuildable_bare (item : WorkItemId) (s : Site L) :
    s.bare.makeBuildable w.bare b item = (s.makeBuildable w b item).map id bare := by
  have queue : s.bare.queue.makeBuildable item =
    (s.queue.makeBuildable item).map fun x => (x.1.bare, x.2) := s.queue.makeBuildable_bare item
  simp only [makeBuildable, queue]
  cases s.queue.makeBuildable item with
  | error e => rfl
  | ok x =>
    obtain ⟨queue, ready⟩ := x
    cases ready with
    | none => rfl
    | some item => exact congrArg _ (notify_bare item { s with queue })

theorem submit_bare (item : WorkItem) (s : Site L) : s.bare.submit item = (s.submit item).bare := by
  simp only [submit, bare, Queue.submit_bare]

theorem cancel_bare (item : WorkItemId) (s : Site L) :
    s.bare.cancel item = (s.cancel item).map id bare := by
  have queue : s.bare.queue.cancel item = (s.queue.cancel item).map Queue.bare :=
    s.queue.cancel_bare item
  simp only [cancel, queue]
  cases s.queue.cancel item <;> rfl

theorem assign_bare (item : WorkItemId) (s : Site L) :
    s.bare.assign item = (s.assign item).map id bare := by
  have queue : s.bare.queue.assign item = (s.queue.assign item).map Queue.bare :=
    s.queue.assign_bare item
  simp only [assign, queue]
  cases s.queue.assign item <;> rfl

theorem online_bare (p : PlannedId) (s : Site L) :
    s.bare.online p = (s.online p).map id bare := by
  have queue : s.bare.queue.online p = (s.queue.online p).map Queue.bare := s.queue.online_bare p
  simp only [online, queue]
  cases s.queue.online p <;> rfl

theorem assignAll_bare (items : List WorkItemId) (s : Site L) :
    assignAll items s.bare = (assignAll items s).bare := by
  induction items generalizing s with
  | nil => rfl
  | cons item items ih =>
    simp only [assignAll, assign_bare]
    rcases s.assign item with ⟨done, s₁⟩
    cases done with
    | error e => rfl
    | ok _ => exact ih s₁

variable [Limiter L]

theorem retires_bare (ids : List PlannedId) (s : Site L) :
    ids.foldl retire s.bare = (ids.foldl retire s).bare := by
  induction ids generalizing s with
  | nil => rfl
  | cons p ids ih =>
    have retired : s.bare.retire p = (s.retire p).bare := by
      simp only [retire, online_bare]
      rcases s.online p with ⟨done, s₁⟩
      cases done <;> rfl
    simp only [List.foldl_cons, retired, ih]

theorem runReadyWork_bare (r : ResourceClass) (s : Site L) :
    s.bare.runReadyWork r = (s.runReadyWork r).bare := by
  have ids : s.bare.queue.inFlightIds r = s.queue.inFlightIds r := rfl
  simp only [runReadyWork, ids, retires_bare]
  generalize (s.queue.inFlightIds r).foldl retire s = s₁
  have items : (s₁.bare.queue.snapshot r).items.map (·.item.id) =
      (s₁.queue.snapshot r).items.map (·.item.id) := by
    show (s₁.queue.bare.snapshot r).items.map _ = _
    rw [Queue.snapshot_bare, List.map_map]
    rfl
  rw [items, assignAll_bare]

end Site

/-! ## What others do -/

/-- What others get back from what they do to a site. -/
inductive Reply where
  /-- The identifier of an item that was submitted. -/
  | submitted (item : WorkItemId)
  /-- Whether there was something to remove. -/
  | cancelled (found : Bool)
  | result (r : Except QueueError Unit)
  /-- What became of a request for a review. -/
  | requested (outcome : RequestOutcome)
  | nothing

variable {w : Wiring} {b : Behaviour}

def Move.reply (w : Wiring) (b : Behaviour) (s : Site L) : Move → Reply
  | submit item | submitBuildable item => .submitted item.id
  | makeBuildable id => .result (s.makeBuildable w b id).1
  | cancel id => .cancelled (s.cancel id).1
  | assign id => .result (s.assign id).1
  | online id => .result (s.online id).1
  | request r source item => .requested (s.request w r source item).1
  | release _ | runReadyWork _ => .nothing

theorem Move.reply_bare (m : Move) (s : Site L) :
    m.reply w.bare b s.bare = m.reply w b s := by
  cases m with
  | makeBuildable id => simp only [reply, Site.makeBuildable_bare, Prod.map, id_eq]
  | cancel id => simp only [reply, Site.cancel_bare, Prod.map, id_eq]
  | assign id => simp only [reply, Site.assign_bare, Prod.map, id_eq]
  | online id => simp only [reply, Site.online_bare, Prod.map, id_eq]
  | request r source item => simp only [reply, Site.request_bare, Prod.map, id_eq]
  | submit _ | submitBuildable _ | release _ | runReadyWork _ => rfl

theorem Move.apply_bare [Limiter L] (m : Move) (s : Site L) :
    m.apply w.bare b s.bare = (m.apply w b s).bare := by
  cases m with
  | submit item => exact s.submit_bare item
  | submitBuildable item =>
    simp only [apply, Site.submitBuildable, Site.submit_bare, Site.makeBuildable_bare, Prod.map]
  | makeBuildable id => simp only [apply, Site.makeBuildable_bare, Prod.map]
  | cancel id => simp only [apply, Site.cancel_bare, Prod.map]
  | assign id => simp only [apply, Site.assign_bare, Prod.map]
  | online id => simp only [apply, Site.online_bare, Prod.map]
  | release id => rfl
  | runReadyWork r => exact s.runReadyWork_bare r
  | request r source item => simp only [apply, Site.request_bare, Prod.map]

end Muster
