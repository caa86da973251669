import Muster.Proofs.Coverage
import Muster.Proofs.Reports

/-!
# Items in the queue and items submitted

An item is in the queue because somebody submitted it. Nothing else adds items: they run, are
cancelled or are replaced by others with their identifiers, and links say nothing about how many
there are. So no class ever has more items in the queue than were submitted for it, and no snapshot
has found more of them.

**Main statements.** `Run.population_le` and `Run.peak_le`.
-/

namespace Muster

variable {L : Type}

/-! ## The population of a queue -/

/-- How many of the items are of a class. -/
def ofClass (items : List WorkItem) (r : ResourceClass) : Nat := items.countP (·.resource == r)

theorem ofClass_append (items more : List WorkItem) (r : ResourceClass) :
    ofClass (items ++ more) r = ofClass items r + ofClass more r := List.countP_append

/-- The classes share the items. -/
theorem sum_ofClass_le {classes : List ResourceClass} (once : classes.Nodup)
    (items : List WorkItem) : (classes.map (ofClass items)).sum ≤ items.length := by
  induction items with
  | nil =>
    have none : ofClass [] = fun _ => 0 := rfl
    simp [none]
  | cons item items ih =>
    have split : ∀ r, ofClass (item :: items) r =
        (if item.resource = r then 1 else 0) + ofClass items r := by
      intro r
      simp [ofClass, List.countP_cons, Nat.add_comm]
    have sum : (classes.map (ofClass (item :: items))).sum =
        (if item.resource ∈ classes then 1 else 0) + (classes.map (ofClass items)).sum := by
      rw [← Count.sum_indicator once item.resource 1, ← List.sum_map_add]
      exact congrArg List.sum (List.map_congr_left fun r _ => split r)
    rw [sum, List.length_cons]
    split <;> omega

namespace Queue

/-- How many items of a class are in the queue. -/
def population (q : Queue) (r : ResourceClass) : Nat :=
  q.items.values.countP (·.item.resource == r)

variable {q q' : Queue} {id : WorkItemId} {e : QueuedItem}

theorem population_eq (q : Queue) (r : ResourceClass) :
    q.population r = q.items.sumOf fun _ e => if e.item.resource = r then 1 else 0 := by
  simp [population, Table.countP_values]

/-- Links say nothing about how many items there are. -/
theorem population_congr (same : q'.bare = q.bare) (r : ResourceClass) :
    q'.population r = q.population r := by
  have bare : ∀ q : Queue, q.bare.population r = q.population r := fun q => by
    rw [population_eq, population_eq, Queue.bare, Table.sumOf_mapValues]
    rfl
  rw [← bare, same, bare]

/-- The queue with an item put in, in place of an earlier one with its identifier. -/
def put (q : Queue) (id : WorkItemId) (e : QueuedItem) : Queue :=
  { q with items := q.items.insert id e }

theorem population_put_le (q : Queue) (id : WorkItemId) (e : QueuedItem) (r : ResourceClass) :
    (q.put id e).population r ≤ q.population r + ofClass [e.item] r := by
  have one : ofClass [e.item] r = if e.item.resource = r then 1 else 0 := by
    simp [ofClass, List.countP_cons]
  rw [population_eq, population_eq, one, Nat.add_comm]
  exact Table.sumOf_insert_le _ _ _ _

theorem population_put_same (found : q.items.find? id = some e) (e' : QueuedItem)
    (same : e'.item = e.item) (r : ResourceClass) : (q.put id e').population r = q.population r := by
  have replaced := Table.sumOf_replace found e' fun _ e => if e.item.resource = r then 1 else 0
  rw [population_eq, population_eq]
  rw [same] at replaced
  exact Nat.add_right_cancel replaced

theorem population_erase_le (items : q'.items = q.items.erase id) (r : ResourceClass) :
    q'.population r ≤ q.population r := by
  rw [population_eq, population_eq, items]
  exact Table.sumOf_erase_le _ _ _

theorem withBuildable_population (q : Queue) (id : WorkItemId) (r : ResourceClass) :
    (q.withBuildable id).population r = q.population r := by
  rcases q.withBuildable_items id with same | ⟨e, found, ready⟩
  · rw [same]
  · rw [ready]
    exact population_put_same found { e with state := .buildable } rfl r

theorem assign_population_le (h : q.assign id = .ok q') (r : ResourceClass) :
    q'.population r ≤ q.population r := by
  obtain ⟨e, -, -, -, ⟨-, rfl⟩ | ⟨p, -, rfl⟩⟩ := assign_ok h
  · exact population_erase_le rfl r
  · rw [population_congr ((q.spend id e).bare_bequeath e.item.resource p) r]
    exact population_erase_le rfl r

/-- A snapshot finds no more items than there are. -/
theorem length_snapshot_le (q : Queue) (r : ResourceClass) :
    (q.snapshot r).items.length ≤ q.population r := by
  rw [length_snapshot, buildable, ← List.countP_eq_length_filter, population]
  exact List.countP_mono_left fun e _ both => (Bool.and_eq_true_iff.1 both).2

/-- The item that an operation submits. -/
def Op.item? : Op → Option WorkItem
  | submit item | submitBuildable item => some item
  | _ => none

/-- An operation adds no items but the one that it submits. -/
theorem Op.population_le (op : Op) (q : Queue) (r : ResourceClass) :
    (op.apply q).population r ≤ q.population r + ofClass op.item?.toList r := by
  have done := op.does q
  generalize op.apply q = q' at done ⊢
  cases done with
  | submit item => exact q.population_put_le item.id ⟨item, .waiting, none⟩ r
  | submitBuildable item =>
    rw [withBuildable_population]
    exact q.population_put_le item.id ⟨item, .waiting, none⟩ r
  | makeBuildable id => exact Nat.le_of_eq (q.withBuildable_population id r)
  | cancel gone =>
    obtain rfl := cancel_some gone
    exact population_erase_le rfl r
  | @track link _ tracked =>
    obtain ⟨e, found, rfl⟩ := track_ok tracked
    exact Nat.le_of_eq (population_put_same found { e with link := some link.planned } rfl r)
  | recordPending planned => exact Nat.le_refl _
  | online landed =>
    have dropped : q'.population r = q.population r := by
      rw [population_eq, population_eq, online_items landed, Table.sumOf_mapValues]
      congr
      funext _ e
      split <;> rfl
    exact Nat.le_of_eq dropped
  | assign ran => exact assign_population_le ran r
  | refused => exact Nat.le_add_right _ _

end Queue

/-! ## What others submit -/

/-- The item that a move submits. -/
def Move.item? : Move → Option WorkItem
  | submit item | submitBuildable item => some item
  | _ => none

theorem Move.Performs.item?_eq_none {m : Move} {op : Queue.Op} (h : m.Performs op)
    (quiet : m.item? = none) : op.item? = none := by
  cases m with
  | submit item | submitBuildable item => cases quiet
  | release id | request r source item => cases h
  | runReadyWork r => obtain ⟨id, rfl⟩ | ⟨id, rfl⟩ := h <;> rfl
  | _ =>
    cases h
    rfl

variable {w : Wiring} {b : Behaviour} {c : Chain L} {terms : Terms}

section Acts

variable [Limiter L]

/-- A move adds no items but the one that it submits. -/
theorem Move.population_le (m : Move) (s : Site L) (r : ResourceClass) :
    (m.apply w b s).queue.population r ≤ s.queue.population r + ofClass m.item?.toList r := by
  have quietly (quiet : m.item? = none) :
      (m.apply w b s).queue.population r ≤ s.queue.population r + ofClass m.item?.toList r := by
    obtain ⟨ops, ran, performs⟩ := m.queue_eq_run (w := w) (b := b) s
    rw [ran, quiet]
    refine Queue.run_keeps (P := fun q => q.population r ≤ s.queue.population r) ?_ (Nat.le_refl _)
    intro q op mem le
    have step := op.population_le q r
    rw [(performs op mem).item?_eq_none quiet] at step
    exact Nat.le_trans step le
  cases m with
  | submit item => exact (Queue.Op.submit item).population_le s.queue r
  | submitBuildable item =>
    have queue : ((submitBuildable item).apply w b s).queue = _ :=
      (Site.inquires_makeBuildable item.id (s.submit item)).queue
    rw [queue]
    exact (Queue.Op.submitBuildable item).population_le s.queue r
  | _ => exact quietly rfl

end Acts

/-- Strategies of the host submit nothing. -/
def Chain.SubmitsNothing (c : Chain L) : Prop :=
  ∀ name ordinal apply, .custom name ordinal apply ∈ c → ∀ b s st d s' st',
    apply b s st = (d, s', st') → ∀ r, s'.queue.population r ≤ s.queue.population r

theorem Chain.Plain.submitsNothing {c : Chain L} (h : c.Plain) : c.SubmitsNothing :=
  fun _ _ _ mem => absurd mem (h _ _ _)

/-! ## Reviews submit nothing -/

section Reviews

variable [Limiter L]

theorem Engine.accept_bare (tracker : w.tracker.ChangesOnlyLinks) (q : Request) (a : Answer)
    (s : Site L) (st : ReviewState) :
    (Engine.accept w q a s st).1.queue.bare = s.queue.bare := by
  have reported := fun e (s : Site L) => congrArg Site.queue (Site.bare_emit w e s)
  cases a with
  | error e => exact reported _ s
  | ok planned =>
    simp only [accept]
    split
    · rfl
    · exact (reported _ _).trans (congrArg Site.queue (Site.bare_tracks tracker _ _))

theorem Stride.population_le (tracker : w.tracker.ChangesOnlyLinks) (quiet : c.SubmitsNothing)
    {gives : Answering} {x y : Site L × ReviewState} (stride : Stride w b c gives x y)
    (r : ResourceClass) : y.1.queue.population r ≤ x.1.queue.population r := by
  cases stride with
  | headroom _ _ | limit _ _ | request _ _ _ => exact Nat.le_refl _
  | @accept s st q a _ _ =>
    exact Nat.le_of_eq (Queue.population_congr (Engine.accept_bare tracker q a s st) r)
  | @custom s st _ _ _ mem => exact quiet _ _ _ mem b s st _ _ _ rfl r
  | @report s st e =>
    exact Nat.le_of_eq (Queue.population_congr (congrArg Site.queue (Site.bare_emit w e s)) r)

/-- Where others do nothing, no items are added. -/
theorem Stage.Step.population_le (tracker : w.tracker.ChangesOnlyLinks) (quiet : c.SubmitsNothing)
    (still : ∀ m, ¬ terms.moves m) {f g : Stage L} (step : Step w b c terms f g)
    (r : ResourceClass) : g.site.queue.population r ≤ f.site.queue.population r := by
  cases step with
  | move allowed => exact absurd allowed (still _)
  | receive _ | begin _ => exact Nat.le_refl _
  | stride _ stride => exact stride.population_le tracker quiet r
  | @conclude r' st t _ =>
    obtain ⟨journal, concluded⟩ := Cycle.conclude_frame w r' f.site st t
    exact Nat.le_of_eq (congrArg (·.queue.population r) concluded)

end Reviews

/-! ## Runs -/

/-- The item that an action submits. -/
def Action.item? : Action → Option WorkItem
  | move m => m.item?
  | _ => none

/-- The items that were submitted, oldest first. -/
def History.submitted (h : History L) : List WorkItem := h.filterMap fun x => x.2.item?

theorem History.submitted_append (h : History L) (sys : System L) (a : Action) :
    History.submitted (h ++ [(sys, a)]) = h.submitted ++ a.item?.toList := by
  unfold submitted
  rw [List.filterMap_append]
  cases item : a.item? <;> simp [item]

section Runs

variable [Limiter L] {limiter : L} {line : RequestLine} {h : History L} {sys sys' : System L}

/-- An action adds no items but the one that it submits. -/
theorem Run.population_act_le (tracker : w.tracker.ChangesOnlyLinks) (quiet : c.SubmitsNothing)
    (gives : b.Gives terms.answers) (run : Run w b c terms (.idle limiter line) h sys) {a : Action}
    (allowed : terms.Allow sys a) (acted : sys.act w b c a = some sys') (r : ResourceClass) :
    sys'.site.queue.population r ≤ sys.site.queue.population r + ofClass a.item?.toList r := by
  by_cases move : ∃ m, a = .move m
  · obtain ⟨m, rfl⟩ := move
    cases acted
    exact m.population_le sys.site r
  · -- Any other action is shown by steps of the stage on which others do nothing.
    obtain ⟨f, -, shown, -⟩ := run.shown gives
    let still : Terms := { terms with moves := fun _ => False }
    have allowed' : still.Allow sys a := by
      cases a with
      | move m => exact absurd ⟨m, rfl⟩ move
      | _ => exact allowed
    have gives' : b.Gives still.answers := gives
    obtain ⟨f', steps, shown', -⟩ :=
      shown.act (run.orderly (.idle limiter line)) gives' allowed' acted
    have le := steps.keeps (P := fun g => g.site.queue.population r ≤ f.site.queue.population r)
      (fun _ _ step before =>
        Nat.le_trans (step.population_le tracker quiet (fun _ => id) r) before) (Nat.le_refl _)
    rw [← shown'.site, ← shown.site]
    exact Nat.le_trans le (Nat.le_add_right _ _)

/-- No class has more items in the queue than were submitted for it. -/
theorem Run.population_le (tracker : w.tracker.ChangesOnlyLinks) (quiet : c.SubmitsNothing)
    (gives : b.Gives terms.answers) (run : Run w b c terms (.idle limiter line) h sys)
    (r : ResourceClass) : sys.site.queue.population r ≤ ofClass h.submitted r := by
  induction run with
  | start => exact Nat.zero_le _
  | @next h sys a sys' run allowed acted ih =>
    have step := run.population_act_le tracker quiet gives allowed acted r
    rw [History.submitted_append, ofClass_append]
    omega

/-- No snapshot has found more items of a class than were submitted for it. -/
theorem Run.peak_le (tracker : w.tracker.ChangesOnlyLinks) (quiet : c.SubmitsNothing)
    (gives : b.Gives terms.answers) (run : Run w b c terms (.idle limiter line) h sys)
    (r : ResourceClass) : h.peak r ≤ ofClass h.submitted r := by
  induction run with
  | start => exact Nat.zero_le _
  | @next h sys a sys' run allowed acted ih =>
    have population := run.population_le tracker quiet gives r
    rw [History.submitted_append, ofClass_append, History.peak, History.snapshots_append]
    cases found : sys.snapshot? a with
    | none =>
      rw [Option.toList_none, List.append_nil]
      exact Nat.le_trans ih (Nat.le_add_right _ _)
    | some taken =>
      obtain ⟨q, snap⟩ := taken
      have length := sys.site.queue.length_snapshot_le q
      rw [← System.eq_of_snapshot? found] at length
      rw [Option.toList_some, peak_append]
      have before : peak h.snapshots r ≤ ofClass h.submitted r := ih
      by_cases e : q = r
      · subst e
        rw [if_pos rfl]
        omega
      · rw [if_neg e]
        omega

end Runs

end Muster
