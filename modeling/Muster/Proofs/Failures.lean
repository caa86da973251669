import Muster.Proofs.LiveLinks

/-!
# Failures go unnoticed

An operation that fails is as good as not tried: nobody is told of it, no view of the queue shows
it, and no later operation gives another answer because of it.

The queue is not left as it was in every detail. The idle units of a class are kept in an entry, and
whoever wants to run an item opens the entry before it is known whether there is an idle unit. What
is left behind then is an entry without units. `assign` gives no queue if it fails, so `draw` takes
it apart into its steps here, and the two give the same answers.

Queues that differ in entries without units only are `Alike`. Every operation gives the same answer
on both and leaves queues that are alike again, so no sequence of operations tells them apart.

**Main statements.** `Runner.Alike.attempt`, one operation on queues that are alike;
`failures_unnoticed`.
-/

namespace Muster

namespace Queue

/-! ## Attempts -/

/-- What an operation answers. -/
inductive Reply where
  | done
  | queued (id : WorkItemId)
  | cancelled (found : Bool)
  | failed (error : QueueError)
  | unlinked (error : TrackError)
deriving DecidableEq

/-- The operation did not do what it was asked to. -/
def Reply.isFailure : Reply → Bool
  | done | queued _ => false
  | cancelled found => !found
  | failed _ | unlinked _ => true

/-- What comes of an attempt at an operation. -/
structure Attempt where
  reply : Reply
  /-- The item that listeners are told of. -/
  told : Option WorkItem := none
  left : Queue

/-- How an attempt is made to run an item. -/
abbrev Runner := Queue → WorkItemId → Attempt

/-- The item runs, or nothing happens. -/
def whole : Runner := fun q id =>
  match q.assign id with
  | .ok q' => { reply := .done, left := q' }
  | .error e => { reply := .failed e, left := q }

/-- The queue with an entry that counts `n` idle units of a class. -/
def withIdle (q : Queue) (r : ResourceClass) (n : Count) : Queue :=
  { q with available := q.available.insert r n }

/-- The item runs step by step, and its class has an entry as soon as the item may run. -/
def draw : Runner := fun q id =>
  match q.items.find? id with
  | none => { reply := .failed (.unknownItem id), left := q }
  | some e =>
    if e.state ≠ .buildable then { reply := .failed (.notBuildable id), left := q }
    else
      let resource := e.item.resource
      let idle := q.availableOf resource
      let opened := q.withIdle resource idle
      if idle = 0 then { reply := .failed (.noCapacity resource), left := opened }
      else
        let taken := opened.withIdle resource (idle - 1)
        let rest := { taken with items := taken.items.erase id }
        match taken.live e.link with
        | none => { reply := .done, left := rest }
        | some planned => { reply := .done, left := rest.bequeath resource planned }

/-- An attempt at an operation. -/
def Op.attempt (run : Runner) (q : Queue) : Op → Attempt
  | submit item => { reply := .queued item.id, left := q.submit item }
  | submitBuildable item =>
    match (q.submit item).makeBuildable item.id with
    | .ok (q', ready) => { reply := .queued item.id, told := ready, left := q' }
    | .error _ => { reply := .queued item.id, left := q.submit item }
  | makeBuildable id =>
    match q.makeBuildable id with
    | .ok (q', ready) => { reply := .done, told := ready, left := q' }
    | .error e => { reply := .failed e, left := q }
  | cancel id =>
    match q.cancel id with
    | some q' => { reply := .cancelled true, left := q' }
    | none => { reply := .cancelled false, left := q }
  | track link =>
    match q.track link with
    | .ok q' => { reply := .done, left := q' }
    | .error e => { reply := .unlinked e, left := q }
  | recordPending planned => { reply := .done, left := q.recordPending planned }
  | online id =>
    match q.online id with
    | .ok q' => { reply := .done, left := q' }
    | .error e => { reply := .failed e, left := q }
  | assign id => run q id

/-- The queue after attempts, one after the other. -/
def after (run : Runner) (q : Queue) (ops : List Op) : Queue :=
  ops.foldl (fun q op => (op.attempt run q).left) q

/-- What attempts answer, one after the other, and what listeners are told. -/
def answers (run : Runner) : Queue → List Op → List (Reply × Option WorkItem)
  | _, [] => []
  | q, op :: ops =>
    let a := op.attempt run q
    (a.reply, a.told) :: answers run a.left ops

/-- Whole attempts leave the queue that operations give. -/
theorem Op.left_whole (op : Op) (q : Queue) : (op.attempt whole q).left = op.apply q := by
  cases op with
  | submit | recordPending => rfl
  | submitBuildable item =>
    simp only [attempt, apply, withBuildable]
    cases (q.submit item).makeBuildable item.id <;> rfl
  | makeBuildable id =>
    simp only [attempt, apply, withBuildable]
    cases q.makeBuildable id <;> rfl
  | cancel id =>
    simp only [attempt, apply]
    cases q.cancel id <;> rfl
  | track link =>
    simp only [attempt, apply]
    cases q.track link <;> rfl
  | online id =>
    simp only [attempt, apply]
    cases q.online id <;> rfl
  | assign id =>
    simp only [attempt, apply, whole]
    cases q.assign id <;> rfl

theorem after_whole (q : Queue) (ops : List Op) : q.after whole ops = q.run ops := by
  simp only [after, run, Op.left_whole]

/-! ## Views -/

/-- No view tells the queues apart. -/
structure SameViews (q q' : Queue) : Prop where
  /-- The number of items, and whether there are any. -/
  size : q.size = q'.size
  stateOf : ∀ id, q.stateOf id = q'.stateOf id
  linkOf : ∀ id, q.linkOf id = q'.linkOf id
  inFlightIds : ∀ r, q.inFlightIds r = q'.inFlightIds r
  pendingClasses : q.pendingClasses = q'.pendingClasses
  snapshot : ∀ r, q.snapshot r = q'.snapshot r
  inFlightByProvider : q.inFlightByProvider = q'.inFlightByProvider

/-- Neither a view nor an answer tells the queues apart, now or after any operations. -/
def Indistinct (run : Runner) (q q' : Queue) : Prop := ∀ later : List Op,
  q.answers run later = q'.answers run later ∧ SameViews (q.after run later) (q'.after run later)

/-! ## Queues that are alike -/

/-- The queues differ in entries without units only. -/
structure Alike (q q' : Queue) : Prop where
  items : q.items = q'.items
  inFlight : q.inFlight = q'.inFlight
  idle : ∀ r, q.availableOf r = q'.availableOf r

variable {q q' q'' : Queue} {r : ResourceClass} {n : Count} {id : WorkItemId} {e : QueuedItem}

namespace Alike

theorem refl (q : Queue) : q.Alike q := ⟨rfl, rfl, fun _ => rfl⟩

theorem symm (h : q.Alike q') : q'.Alike q :=
  ⟨h.items.symm, h.inFlight.symm, fun r => (h.idle r).symm⟩

theorem trans (h : q.Alike q') (h' : q'.Alike q'') : q.Alike q'' :=
  ⟨h.items.trans h'.items, h.inFlight.trans h'.inFlight, fun r => (h.idle r).trans (h'.idle r)⟩

/-- Operations may change the items. -/
theorem withItems (h : q.Alike q') (items : Table WorkItemId QueuedItem) :
    Alike { q with items } { q' with items } := ⟨rfl, h.inFlight, h.idle⟩

theorem withIdle (h : q.Alike q') (r : ResourceClass) (n : Count) :
    (q.withIdle r n).Alike (q'.withIdle r n) := by
  refine ⟨h.items, h.inFlight, fun r' => ?_⟩
  rw [availableOf_insert rfl, availableOf_insert rfl]
  split
  · rfl
  · exact h.idle r'

/-- An entry may be opened with the units that there are. -/
theorem opened (q : Queue) (r : ResourceClass) : (q.withIdle r (q.availableOf r)).Alike q := by
  refine ⟨rfl, rfl, fun r' => ?_⟩
  rw [availableOf_insert rfl]
  split
  · rename_i same
    rw [same]
  · rfl

theorem live (h : q.Alike q') : q.live = q'.live := by
  funext link
  rw [Queue.live, Queue.live, h.inFlight]

theorem buildable (h : q.Alike q') (r : ResourceClass) : q.buildable r = q'.buildable r := by
  rw [Queue.buildable, Queue.buildable, h.items]

theorem bequeath (h : q.Alike q') (r : ResourceClass) (p : PlannedId) :
    (q.bequeath r p).Alike (q'.bequeath r p) := by
  simp only [Queue.bequeath, heir?, h.buildable, h.live]
  split
  · exact h
  · rw [h.items]
    exact h.withItems _

theorem views (h : q.Alike q') : q.SameViews q' := by
  have flights : ∀ r, q.inFlightOf r = q'.inFlightOf r := fun r => by
    rw [inFlightOf, inFlightOf, h.inFlight]
  constructor
  case size => rw [size, size, h.items]
  case stateOf =>
    intro id
    rw [stateOf, stateOf, h.items]
  case linkOf =>
    intro id
    rw [linkOf, linkOf, h.items]
  case inFlightIds =>
    intro r
    rw [inFlightIds, inFlightIds, flights]
  case pendingClasses => rw [pendingClasses, pendingClasses, h.items]
  case snapshot =>
    intro r
    rw [snapshot, snapshot, h.buildable, h.live, h.idle, flights]
  case inFlightByProvider => rw [inFlightByProvider, inFlightByProvider, h.inFlight]

end Alike

/-- The attempts answer the same and leave queues that are alike. -/
structure Attempt.Alike (a a' : Attempt) : Prop where
  reply : a.reply = a'.reply
  told : a.told = a'.told
  left : a.left.Alike a'.left

/-- On queues that are alike, either way to run items gives the same answers. -/
def Runner.Alike (run run' : Runner) : Prop :=
  ∀ {q q' : Queue} (id : WorkItemId), q.Alike q' → (run q id).Alike (run' q' id)

namespace Runner.Alike

variable {run run' : Runner}

/-- An operation on queues that are alike gives the same answer and leaves queues that are alike. -/
theorem attempt (h : run.Alike run') (alike : q.Alike q') (op : Op) :
    (op.attempt run q).Alike (op.attempt run' q') := by
  cases op with
  | submit item =>
    simp only [Op.attempt, submit, alike.items]
    exact ⟨rfl, rfl, alike.withItems _⟩
  | submitBuildable item =>
    simp only [Op.attempt, submit, makeBuildable, alike.items, Table.find?_insert, if_true,
      reduceCtorEq, if_false]
    exact ⟨rfl, rfl, alike.withItems _⟩
  | makeBuildable id =>
    simp only [Op.attempt, makeBuildable, alike.items]
    cases q'.items.find? id with
    | none => exact ⟨rfl, rfl, alike⟩
    | some e =>
      by_cases ready : e.state = .buildable
      · simp only [if_pos ready]
        exact ⟨rfl, rfl, alike⟩
      · simp only [if_neg ready]
        exact ⟨rfl, rfl, alike.withItems _⟩
  | cancel id =>
    simp only [Op.attempt, cancel, alike.items]
    by_cases here : q'.items.contains id = true
    · simp only [if_pos here]
      exact ⟨rfl, rfl, alike.withItems _⟩
    · simp only [if_neg here]
      exact ⟨rfl, rfl, alike⟩
  | track link =>
    simp only [Op.attempt, track, alike.items, alike.live]
    cases q'.items.find? link.item with
    | none => exact ⟨rfl, rfl, alike⟩
    | some e =>
      cases live : q'.live e.link with
      | none =>
        simp only [live]
        exact ⟨rfl, rfl, alike.withItems _⟩
      | some p =>
        simp only [live]
        by_cases other : p ≠ link.planned
        · simp only [if_pos other]
          exact ⟨rfl, rfl, alike⟩
        · simp only [if_neg other]
          exact ⟨rfl, rfl, alike.withItems _⟩
  | recordPending planned =>
    simp only [Op.attempt, recordPending, alike.inFlight]
    exact ⟨rfl, rfl, alike.items, rfl, alike.idle⟩
  | online p =>
    simp only [Op.attempt, online, alike.inFlight, alike.items, alike.idle]
    cases q'.inFlight.find? p with
    | none => exact ⟨rfl, rfl, alike⟩
    | some c =>
      have landed := alike.withIdle c.resource (q'.availableOf c.resource + c.units)
      exact ⟨rfl, rfl, rfl, rfl, landed.idle⟩
  | assign id => exact h id alike

theorem after (h : run.Alike run') (alike : q.Alike q') (ops : List Op) :
    (q.after run ops).Alike (q'.after run' ops) := by
  induction ops generalizing q q' with
  | nil => exact alike
  | cons op ops ih => exact ih (h.attempt alike op).left

theorem answers (h : run.Alike run') (alike : q.Alike q') (ops : List Op) :
    q.answers run ops = q'.answers run' ops := by
  induction ops generalizing q q' with
  | nil => rfl
  | cons op ops ih =>
    have here := h.attempt alike op
    simp only [Queue.answers, here.reply, here.told, ih here.left]

/-- Nothing tells queues apart that are alike. -/
theorem indistinct (h : run.Alike run) (alike : q.Alike q') : q.Indistinct run q' :=
  fun later => ⟨h.answers alike later, (h.after alike later).views⟩

end Runner.Alike

/-! ## Either way to run items -/

namespace Attempt.Alike

variable {a a' a'' : Attempt}

theorem symm (h : a.Alike a') : a'.Alike a := ⟨h.reply.symm, h.told.symm, h.left.symm⟩

theorem trans (h : a.Alike a') (h' : a'.Alike a'') : a.Alike a'' :=
  ⟨h.reply.trans h'.reply, h.told.trans h'.told, h.left.trans h'.left⟩

end Attempt.Alike

theorem withIdle_withIdle (q : Queue) (r : ResourceClass) (m n : Count) :
    (q.withIdle r m).withIdle r n = q.withIdle r n := by
  simp only [withIdle, Table.insert_insert]

/-- Step by step the same is done as in one step, a spare entry apart. -/
theorem draw_alike (q : Queue) (id : WorkItemId) : (draw q id).Alike (whole q id) := by
  simp only [draw, whole, assign, withIdle_withIdle]
  cases q.items.find? id with
  | none => exact ⟨rfl, rfl, .refl q⟩
  | some e =>
    by_cases waits : e.state ≠ .buildable
    · simp only [if_pos waits]
      exact ⟨rfl, rfl, .refl q⟩
    · simp only [if_neg waits]
      by_cases none : q.availableOf e.item.resource = 0
      · simp only [if_pos none]
        exact ⟨rfl, rfl, .opened q e.item.resource⟩
      · simp only [if_neg none]
        have live : (q.withIdle e.item.resource (q.availableOf e.item.resource - 1)).live e.link =
            q.live e.link := rfl
        rw [live]
        cases q.live e.link <;> exact ⟨rfl, rfl, .refl _⟩

theorem Runner.alike_whole : Runner.Alike whole whole := by
  intro q q' id alike
  simp only [whole, assign, alike.items, alike.idle, alike.live]
  cases q'.items.find? id with
  | none => exact ⟨rfl, rfl, alike⟩
  | some e =>
    by_cases waits : e.state ≠ .buildable
    · simp only [if_pos waits]
      exact ⟨rfl, rfl, alike⟩
    · simp only [if_neg waits]
      by_cases none : q'.availableOf e.item.resource = 0
      · simp only [if_pos none]
        exact ⟨rfl, rfl, alike⟩
      · simp only [if_neg none]
        have rest := (alike.withIdle e.item.resource
          (q'.availableOf e.item.resource - 1)).withItems (q'.items.erase id)
        cases q'.live e.link with
        | none => exact ⟨rfl, rfl, rest⟩
        | some p => exact ⟨rfl, rfl, rest.bequeath e.item.resource p⟩

theorem Runner.alike_draw_whole : Runner.Alike draw whole :=
  fun id alike => (draw_alike _ id).trans (alike_whole id alike)

theorem Runner.alike_draw : Runner.Alike draw draw :=
  fun id alike => (alike_draw_whole id alike).trans (draw_alike _ id).symm

/-! ## Faults -/

/-- What an operation fails with, told by the views; the conditions of a case rule out the cases
before it. -/
inductive Op.Faults (q : Queue) : Op → Reply → Prop
  | makeUnknown {id : WorkItemId} : q.stateOf id = none →
      Faults q (.makeBuildable id) (.failed (.unknownItem id))
  | cancelUnknown {id : WorkItemId} : q.stateOf id = none →
      Faults q (.cancel id) (.cancelled false)
  | assignUnknown {id : WorkItemId} : q.stateOf id = none →
      Faults q (.assign id) (.failed (.unknownItem id))
  | assignWaiting {id : WorkItemId} : q.stateOf id = some .waiting →
      Faults q (.assign id) (.failed (.notBuildable id))
  | assignIdle {r : ResourceClass} {x : PendingItem} : x ∈ (q.snapshot r).items →
      (q.snapshot r).available = 0 → Faults q (.assign x.item.id) (.failed (.noCapacity r))
  | onlineUnknown {p : PlannedId} : (∀ r, p ∉ q.inFlightIds r) →
      Faults q (.online p) (.failed (.unknownCapacity p))
  | trackUnknown {link : Link} : q.stateOf link.item = none →
      Faults q (.track link) (.unlinked (.unknownItem link.item))
  | trackLinked {link : Link} {p : PlannedId} {r : ResourceClass} :
      q.linkOf link.item = some p → p ∈ q.inFlightIds r → p ≠ link.planned →
      Faults q (.track link) (.unlinked (.alreadyLinked link.item p))

theorem stateOf_eq_none : q.stateOf id = none ↔ q.items.find? id = none := by
  rw [stateOf, Option.map_eq_none_iff]

theorem stateOf_eq_some {state : ItemState} :
    q.stateOf id = some state ↔ ∃ e, q.items.find? id = some e ∧ e.state = state := by
  rw [stateOf, Option.map_eq_some_iff]

theorem find?_inFlight_eq_none (keyed : PlannedCapacity.Keyed q.inFlight) {p : PlannedId} :
    q.inFlight.find? p = none ↔ ∀ r, p ∉ q.inFlightIds r := by
  rw [← not_exists, ← contains_inFlight keyed, Table.contains, Option.not_isSome_iff_eq_none]

/-- An operation fails where it has to, and with the fault that comes first. -/
theorem Op.Faults.reply_eq {op : Op} {a : Reply} (filed : q.Filed)
    (keyed : PlannedCapacity.Keyed q.inFlight) (h : op.Faults q a) :
    (op.attempt draw q).reply = a ∧ a.isFailure = true := by
  cases h with
  | makeUnknown unknown =>
    simp [attempt, Queue.makeBuildable, stateOf_eq_none.1 unknown, Reply.isFailure]
  | cancelUnknown unknown =>
    simp [attempt, Queue.cancel, Table.contains, stateOf_eq_none.1 unknown, Reply.isFailure]
  | assignUnknown unknown => simp [attempt, draw, stateOf_eq_none.1 unknown, Reply.isFailure]
  | assignWaiting waits =>
    obtain ⟨e, found, waits⟩ := stateOf_eq_some.1 waits
    simp [attempt, draw, found, waits, Reply.isFailure]
  | assignIdle shown none =>
    obtain ⟨e, found, ready, rfl, -⟩ := filed.mem_snapshot.1 shown
    have none : q.availableOf e.item.resource = 0 := none
    simp [attempt, draw, found, ready, none, Reply.isFailure]
  | onlineUnknown unknown =>
    simp [attempt, Queue.online, (find?_inFlight_eq_none keyed).2 unknown, Reply.isFailure]
  | trackUnknown unknown =>
    simp [attempt, Queue.track, stateOf_eq_none.1 unknown, Reply.isFailure]
  | @trackLinked link p r linked flying other =>
    have bound : q.Bound link.item p := ⟨linked, (contains_inFlight keyed).2 ⟨r, flying⟩⟩
    have refused : q.track link = _ := (bound.track_eq link.planned).trans (if_pos other)
    simp [attempt, refused, Reply.isFailure]

/-- An operation fails for no other reason. -/
theorem Op.faults_of_isFailure {op : Op} (filed : q.Filed)
    (keyed : PlannedCapacity.Keyed q.inFlight)
    (failed : (op.attempt draw q).reply.isFailure = true) :
    op.Faults q (op.attempt draw q).reply := by
  cases op with
  | submit item | recordPending planned => cases failed
  | submitBuildable item =>
    simp only [attempt] at failed
    split at failed <;> cases failed
  | makeBuildable id =>
    simp only [attempt, Queue.makeBuildable] at failed ⊢
    cases found : q.items.find? id with
    | none => exact .makeUnknown (stateOf_eq_none.2 found)
    | some e =>
      simp only [found] at failed
      by_cases ready : e.state = .buildable
      · simp only [if_pos ready] at failed
        cases failed
      · simp only [if_neg ready] at failed
        cases failed
  | cancel id =>
    simp only [attempt, Queue.cancel] at failed ⊢
    by_cases here : q.items.contains id = true
    · simp only [if_pos here] at failed
      cases failed
    · simp only [if_neg here]
      exact .cancelUnknown (stateOf_eq_none.2 (Option.not_isSome_iff_eq_none.1 here))
  | track link =>
    simp only [attempt, Queue.track] at failed ⊢
    cases found : q.items.find? link.item with
    | none => exact .trackUnknown (stateOf_eq_none.2 found)
    | some e =>
      simp only [found] at failed ⊢
      cases live : q.live e.link with
      | none =>
        simp only [live] at failed
        cases failed
      | some p =>
        simp only [live] at failed ⊢
        by_cases other : p ≠ link.planned
        · simp only [if_pos other]
          obtain ⟨linked, flying⟩ := Option.filter_eq_some_iff.1 live
          obtain ⟨r, flying⟩ := (contains_inFlight keyed).1 flying
          exact .trackLinked ((linkOf_of_find? found).trans linked) flying other
        · simp only [if_neg other] at failed
          cases failed
  | online p =>
    simp only [attempt, Queue.online] at failed ⊢
    cases flying : q.inFlight.find? p with
    | none => exact .onlineUnknown ((find?_inFlight_eq_none keyed).1 flying)
    | some c =>
      simp only [flying] at failed
      cases failed
  | assign id =>
    simp only [attempt, draw] at failed ⊢
    cases found : q.items.find? id with
    | none => exact .assignUnknown (stateOf_eq_none.2 found)
    | some e =>
      simp only [found] at failed ⊢
      by_cases waits : e.state ≠ .buildable
      · simp only [if_pos waits]
        have waits : e.state = .waiting := by
          cases state : e.state with
          | waiting => rfl
          | buildable => exact absurd state waits
        exact .assignWaiting (stateOf_eq_some.2 ⟨e, found, waits⟩)
      · simp only [if_neg waits] at failed ⊢
        by_cases none : q.availableOf e.item.resource = 0
        · simp only [if_pos none]
          obtain rfl := filed id e found
          have shown : ⟨e.item, q.live e.link⟩ ∈ (q.snapshot e.item.resource).items :=
            filed.mem_snapshot.2 ⟨e, found, not_not.1 waits, rfl, rfl⟩
          exact .assignIdle shown none
        · simp only [if_neg none] at failed
          split at failed <;> cases failed

/-! ## Operations that come to nothing -/

/-- The operation fails, or it lets an item run that could run before. -/
def Op.Idle (q : Queue) (op : Op) : Prop :=
  (op.attempt draw q).reply.isFailure = true ∨
    ∃ id, op = .makeBuildable id ∧ q.stateOf id = some .buildable

/-- Whoever fails in one step has done nothing. -/
theorem Op.whole_fails {op : Op} (failed : (op.attempt whole q).reply.isFailure = true) :
    (op.attempt whole q).told = none ∧ (op.attempt whole q).left = q := by
  cases op with
  | submit item | recordPending planned => cases failed
  | submitBuildable item =>
    simp only [attempt] at failed
    split at failed <;> cases failed
  | makeBuildable id =>
    simp only [attempt] at failed ⊢
    cases made : q.makeBuildable id with
    | error e => exact ⟨rfl, rfl⟩
    | ok x =>
      rw [made] at failed
      cases failed
  | cancel id =>
    simp only [attempt] at failed ⊢
    cases gone : q.cancel id with
    | none => exact ⟨rfl, rfl⟩
    | some q' =>
      rw [gone] at failed
      cases failed
  | track link =>
    simp only [attempt] at failed ⊢
    cases tracked : q.track link with
    | error e => exact ⟨rfl, rfl⟩
    | ok q' =>
      rw [tracked] at failed
      cases failed
  | online id =>
    simp only [attempt] at failed ⊢
    cases landed : q.online id with
    | error e => exact ⟨rfl, rfl⟩
    | ok q' =>
      rw [landed] at failed
      cases failed
  | assign id =>
    simp only [attempt, whole] at failed ⊢
    cases ran : q.assign id with
    | error e => exact ⟨rfl, rfl⟩
    | ok q' =>
      rw [ran] at failed
      cases failed

/-- Nobody is told, and what is left is as good as before. -/
theorem Op.Idle.unnoticed {op : Op} (h : op.Idle q) :
    (op.attempt draw q).told = none ∧ (op.attempt draw q).left.Alike q := by
  rcases h with failed | ⟨id, rfl, ready⟩
  · have same := Runner.alike_draw_whole.attempt (.refl q) op
    rw [same.reply] at failed
    obtain ⟨untold, unchanged⟩ := Op.whole_fails failed
    have left := same.left
    rw [unchanged] at left
    exact ⟨same.told.trans untold, left⟩
  · obtain ⟨e, found, ready⟩ := stateOf_eq_some.1 ready
    simp only [attempt, Queue.makeBuildable, found, if_pos ready]
    exact ⟨trivial, .refl q⟩

/-- The operation tells the first fault, if there is one, and is forgotten if it comes to
nothing. -/
structure Forgets (q : Queue) (op : Op) : Prop where
  unnoticed : op.Idle q →
    (op.attempt draw q).told = none ∧ (op.attempt draw q).left.Indistinct draw q
  first : ∀ a, (op.attempt draw q).reply = a ∧ a.isFailure = true ↔ op.Faults q a

/-- Whatever operations there were, step by step: one more that fails, or lets an item run that
could run before, tells nobody, and neither a view nor the answers to later operations show that
there was one. It fails just where it has to, with the first fault. The queue in which operations
that fail do nothing gives the same answers and views. -/
theorem failures_unnoticed (ops : List Op) (op : Op) : (empty.after draw ops).Forgets op ∧
    empty.answers draw ops = empty.answers whole ops ∧
    (empty.after draw ops).SameViews (empty.run ops) := by
  have alike := Runner.alike_draw_whole.after (.refl empty) ops
  rw [after_whole] at alike
  have reached : (empty.run ops).Reached := ⟨ops, rfl⟩
  have filed : (empty.after draw ops).Filed := by
    intro id e found
    rw [alike.items] at found
    exact reached.filed id e found
  have keyed : PlannedCapacity.Keyed (empty.after draw ops).inFlight := by
    rw [alike.inFlight]
    exact reached.keyed
  refine ⟨⟨?_, ?_⟩, Runner.alike_draw_whole.answers (.refl empty) ops, alike.views⟩
  · intro idle
    obtain ⟨untold, left⟩ := idle.unnoticed
    exact ⟨untold, Runner.alike_draw.indistinct left⟩
  · intro a
    refine ⟨?_, fun fault => fault.reply_eq filed keyed⟩
    rintro ⟨rfl, failed⟩
    exact Op.faults_of_isFailure filed keyed failed

/-- An item that cannot run for want of a unit leaves an entry without units behind. -/
example : (draw (empty.after draw [.submitBuildable (Sample.item 1)]) (.ofNat 1)).left ≠
    empty.after draw [.submitBuildable (Sample.item 1)] := by decide

end Queue

end Muster
