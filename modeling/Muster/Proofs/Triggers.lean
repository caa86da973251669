import Muster.Proofs.Operations
import Muster.Proofs.Stage

/-!
# No trigger is lost

A class is marked when a review of it was asked for, and the mark goes when a review of the class
begins, whoever asked for that one. As long as the class is marked, a request for it waits in the
line, or the worker has taken one and the review has not begun. So whoever is told that a request is
queued, or merged with one that is, can rely on a review that begins later.

**Main statement.** `Run.no_lost_trigger`: in every run in which strategies of the host ask for no
reviews.
-/

namespace Muster

open Relation

/-! ## Requests -/

namespace RequestLine

/-- What a request for a class makes of the line, with its outcome. -/
inductive Asks (r : ResourceClass) (l l' : RequestLine) : RequestOutcome → Prop
  | queued (source : ReviewSource) : l.isPending r = false →
      l'.waiting = l.waiting ++ [⟨r, source⟩] →
      (∀ q, l'.isPending q = (decide (q = r) || l.isPending q)) → Asks r l l' .queued
  | other {o} : o ≠ .queued → (o = .coalesced → l.isPending r = true) →
      l'.waiting = l.waiting → (∀ q, l'.isPending q = l.isPending q) → Asks r l l' o

theorem asks_request (l : RequestLine) (fastPath : Bool) (r : ResourceClass) (source : ReviewSource)
    (item : Option WorkItemId) : l.Asks r (l.request fastPath r source item).2.2
      (l.request fastPath r source item).1 := by
  simp only [request]
  by_cases off : source = .fastPath ∧ fastPath = false
  · rw [if_pos off]
    exact .other (nomatch ·) (nomatch ·) rfl fun _ => rfl
  rw [if_neg off]
  by_cases pending : l.isPending r = true
  · rw [if_pos pending]
    exact .other (nomatch ·) (fun _ => pending) rfl fun _ => rfl
  rw [if_neg pending]
  have free : l.isPending r = false := Bool.eq_false_iff.2 pending
  by_cases full : l.closed = true ∨ l.capacity ≤ l.waiting.length
  · rw [if_pos full]
    refine .other (nomatch ·) (nomatch ·) rfl ?_
    intro q
    show ((l.pending.mark r).clear r).contains q = l.pending.contains q
    rw [PendingSet.contains_clear, PendingSet.contains_mark]
    by_cases e : q = r
    · subst e
      rw [decide_eq_true rfl]
      exact free.symm
    · rw [decide_eq_false e]
      rfl
  · rw [if_neg full]
    exact .queued source free rfl fun q => PendingSet.contains_mark _ _ _

theorem isPending_begin (l : RequestLine) (r q : ResourceClass) :
    (l.begin r).isPending q = (!decide (q = r) && l.isPending q) :=
  PendingSet.contains_clear _ _ _

end RequestLine

variable {L : Type}

namespace Site

variable {w : Wiring} {b : Behaviour}

theorem emit_line (w : Wiring) (e : Event) (s : Site L) : (s.emit w e).line = s.line := by
  obtain ⟨journal, same⟩ := emit_frame w e s
  rw [same]

theorem asks_request (w : Wiring) (r : ResourceClass) (source : ReviewSource)
    (item : Option WorkItemId) (s : Site L) :
    s.line.Asks r (s.request w r source item).2.line (s.request w r source item).1 := by
  have asks := s.line.asks_request w.fastPath r source item
  simp only [request]
  revert asks
  rcases s.line.request w.fastPath r source item with ⟨outcome, event, line⟩
  intro asks
  cases event with
  | none => exact asks
  | some e =>
    show s.line.Asks r (emit w e { s with line }).line outcome
    rw [emit_line]
    exact asks

end Site

/-- The line after a trigger was told of an item of the class `r`. -/
def RequestLine.Reacts (r : ResourceClass) (l l' : RequestLine) : TriggerOutcome → Prop
  | .requested o => l.Asks r l' o
  | _ => l' = l

namespace Site

variable {w : Wiring} {b : Behaviour}

theorem announceTo_reacts (filter : Filter) (item : WorkItem) (ps : Registry) (s : Site L) :
    s.line.Reacts item.resource (s.announceTo w b filter item ps).2.line
      (s.announceTo w b filter item ps).1 := by
  induction ps generalizing s with
  | nil => rfl
  | cons p rest ih =>
    simp only [announceTo]
    split
    · have asked : (s.askHeadroom b none p item.resource 0).2.line = s.line := rfl
      split
      · rename_i s₁ said
        rw [said] at asked
        have asks := s₁.asks_request w item.resource .fastPath (some item.id)
        rw [asked] at asks
        exact asks
      · rename_i s₁ _ said
        rw [said] at asked
        have later := ih s₁
        rw [asked] at later
        exact later
    · exact ih s

theorem announce_reacts (t : Trigger) (item : WorkItem) (s : Site L) :
    s.line.Reacts item.resource (s.announce w b t item).2.line (s.announce w b t item).1 := by
  simp only [announce]
  split
  · exact announceTo_reacts t.filter item t.providers s
  · rfl

/-- The item that is announced when an item is let run, and what becomes of the announcement. -/
def announcement? (w : Wiring) (b : Behaviour) (id : WorkItemId) (s : Site L) :
    Option (WorkItem × TriggerOutcome) :=
  match s.queue.makeBuildable id with
  | .ok (queue, some item) =>
    w.trigger.map fun t => (item, (announce w b t item { s with queue }).1)
  | _ => none

end Site

/-- The line after what was announced, if anything was. -/
def RequestLine.Hears (l l' : RequestLine) : Option (WorkItem × TriggerOutcome) → Prop
  | some (item, o) => l.Reacts item.resource l' o
  | none => l' = l

theorem Site.makeBuildable_hears {w : Wiring} {b : Behaviour} (id : WorkItemId) (s : Site L) :
    s.line.Hears (s.makeBuildable w b id).2.line (s.announcement? w b id) := by
  simp only [makeBuildable, announcement?]
  cases s.queue.makeBuildable id with
  | error e => rfl
  | ok x =>
    obtain ⟨queue, ready⟩ := x
    cases ready with
    | none => rfl
    | some item =>
      simp only [notify]
      cases w.trigger with
      | none => rfl
      | some t => exact announce_reacts t item { s with queue }

/-! ## Moves -/

/-- What a move announces. -/
def Move.announcement? (w : Wiring) (b : Behaviour) (s : Site L) :
    Move → Option (WorkItem × TriggerOutcome)
  | submitBuildable item => (s.submit item).announcement? w b item.id
  | makeBuildable id => s.announcement? w b id
  | _ => none

/-- The review that an announcement has asked for. -/
def requestOf : Option (WorkItem × TriggerOutcome) → Option (ResourceClass × RequestOutcome)
  | some (item, .requested o) => some (item.resource, o)
  | _ => none

/-- The class that a move, or the trigger on its behalf, asks a review for, with the outcome. -/
def Move.requested? (w : Wiring) (b : Behaviour) (s : Site L) (m : Move) :
    Option (ResourceClass × RequestOutcome) :=
  match m with
  | request r source item => some (r, (s.request w r source item).1)
  | m => requestOf (m.announcement? w b s)

/-- The line after what was asked, if anything was. -/
def RequestLine.Answers (l l' : RequestLine) : Option (ResourceClass × RequestOutcome) → Prop
  | some (r, o) => l.Asks r l' o
  | none => l' = l

theorem RequestLine.Hears.answers {l l' : RequestLine} {x : Option (WorkItem × TriggerOutcome)}
    (h : l.Hears l' x) : l.Answers l' (requestOf x) := by
  rcases x with _ | ⟨item, _ | _ | o⟩ <;> exact h

theorem Site.online_line (id : PlannedId) (s : Site L) : (s.online id).2.line = s.line := by
  simp only [online]
  split <;> rfl

theorem Site.assign_line (id : WorkItemId) (s : Site L) : (s.assign id).2.line = s.line := by
  simp only [assign]
  split <;> rfl

theorem Site.cancel_line (id : WorkItemId) (s : Site L) : (s.cancel id).2.line = s.line := by
  simp only [cancel]
  split <;> rfl

theorem Site.assignAll_line (ids : List WorkItemId) (s : Site L) :
    (assignAll ids s).line = s.line := by
  induction ids generalizing s with
  | nil => rfl
  | cons id ids ih =>
    have assigned := assign_line id s
    simp only [assignAll]
    split
    · rename_i s₁ h
      rw [h] at assigned
      rw [ih, assigned]
    · rename_i h
      rw [h] at assigned
      exact assigned

section Moves

variable [Limiter L] {w : Wiring} {b : Behaviour}

theorem Site.retire_line (s : Site L) (id : PlannedId) : (s.retire id).line = s.line := by
  have online := online_line id s
  simp only [retire]
  split
  · rename_i h
    rw [h] at online
    exact online
  · rename_i h
    rw [h] at online
    exact online

theorem Site.runReadyWork_line (r : ResourceClass) (s : Site L) :
    (s.runReadyWork r).line = s.line := by
  have retired : ∀ (ids : List PlannedId) (s : Site L), (ids.foldl retire s).line = s.line := by
    intro ids
    induction ids with
    | nil => exact fun _ => rfl
    | cons id ids ih =>
      intro s
      rw [List.foldl_cons, ih, retire_line]
  unfold runReadyWork
  rw [assignAll_line, retired]

/-- A move asks for one review at most, and touches the line in no other way. -/
theorem Move.answers (m : Move) (s : Site L) :
    s.line.Answers (m.apply w b s).line (m.requested? w b s) := by
  cases m with
  | submit item => rfl
  | submitBuildable item => exact ((s.submit item).makeBuildable_hears item.id).answers
  | makeBuildable id => exact (s.makeBuildable_hears id).answers
  | cancel id => exact s.cancel_line id
  | assign id => exact s.assign_line id
  | online id => exact s.online_line id
  | release id => rfl
  | runReadyWork r => exact s.runReadyWork_line r
  | request r source item => exact s.asks_request w r source item

/-! ## Reviews -/

/-- Strategies of the host ask for no reviews and start none. -/
def Chain.AsksNothing (c : Chain L) : Prop :=
  ∀ name ordinal apply, .custom name ordinal apply ∈ c → ∀ b s st d s' st',
    apply b s st = (d, s', st') → s'.line = s.line

omit [Limiter L] in
theorem Chain.Plain.asksNothing {c : Chain L} (h : c.Plain) : c.AsksNothing :=
  fun _ _ _ mem => absurd mem (h _ _ _)

theorem Engine.accept_line (q : Request) (a : Answer) (s : Site L) (st : ReviewState) :
    (Engine.accept w q a s st).1.line = s.line := by
  obtain ⟨_, _, _, _, _, same⟩ := Engine.accept_frame w q a s st
  rw [same]

variable {c : Chain L} {gives : Answering}

theorem Stride.line (quiet : c.AsksNothing) {x y : Site L × ReviewState}
    (stride : Stride w b c gives x y) : y.1.line = x.1.line := by
  cases stride with
  | headroom _ _ => rfl
  | limit _ _ => rfl
  | request _ _ _ => rfl
  | accept _ _ => exact Engine.accept_line _ _ _ _
  | custom mem => exact quiet _ _ _ mem _ _ _ _ _ _ rfl
  | report e => exact Site.emit_line w e _

theorem Strides.line (quiet : c.AsksNothing) {x y : Site L × ReviewState}
    (h : Strides w b c gives x y) : y.1.line = x.1.line :=
  h.keeps (P := fun y => y.1.line = x.1.line) (fun _ _ stride e => (stride.line quiet).trans e) rfl

/-- However far a review gets, it leaves the line alone. -/
theorem Cycle.Follows.line (quiet : c.AsksNothing) {r : ResourceClass} {x : Site L × ReviewState}
    {s : Site L} {cycle : Cycle L} (h : Cycle.Follows w b c gives r x (s, cycle)) :
    s.line = x.1.line := by
  cases cycle with
  | waiting st cursor => exact h.1.line quiet
  | finished o =>
    obtain ⟨s₁, st₁, t, strides, concluded⟩ := h
    have ended : s = (Cycle.conclude w r s₁ st₁ t).1 := by rw [concluded]
    rw [ended, ← strides.line quiet]
    exact Site.emit_line w _ _

end Moves

/-! ## Actions -/

section Actions

variable {w : Wiring} {b : Behaviour} {sys sys' : System L} {a : Action}

/-- The review that an action asks for. -/
def System.requested? (w : Wiring) (b : Behaviour) (sys : System L) :
    Action → Option (ResourceClass × RequestOutcome)
  | .move m => m.requested? w b sys.site
  | _ => none

/-- What an action makes of the line: one request, one receipt, the beginning of one review, or
nothing at all. -/
inductive System.LineStep (w : Wiring) (b : Behaviour) (sys : System L) (a : Action)
    (l : RequestLine) : Prop
  | asks {r o} : sys.requested? w b a = some (r, o) → sys.snapshot? a = none →
      sys.site.line.Asks r l o → LineStep w b sys a l
  | receives {q rest} : a = .receive → sys.site.line.waiting = q :: rest →
      l = { sys.site.line with waiting := rest } → LineStep w b sys a l
  | begins {r snap} : sys.requested? w b a = none → sys.snapshot? a = some (r, snap) →
      l = sys.site.line.begin r → LineStep w b sys a l
  | still : sys.requested? w b a = none → sys.snapshot? a = none → l = sys.site.line →
      LineStep w b sys a l

theorem RequestLine.receive_eq {l l' : RequestLine} {q : ReviewRequest}
    (h : l.receive = some (q, l')) :
    ∃ rest, l.waiting = q :: rest ∧ l' = { l with waiting := rest } := by
  simp only [receive] at h
  split at h
  · cases h
  · rename_i first rest waits
    cases h
    exact ⟨rest, waits, rfl⟩

/-- Every action is one of these. -/
theorem System.lineStep [Limiter L] {c : Chain L} (quiet : c.AsksNothing)
    (ready : ∀ {t r φ}, sys.tasks.find? t = some ⟨r, φ⟩ → φ.Ready c)
    (acted : sys.act w b c a = some sys') : sys.LineStep w b a sys'.site.line := by
  cases a with
  | move m =>
    cases acted
    have answers := m.answers (w := w) (b := b) sys.site
    cases asked : m.requested? w b sys.site with
    | none =>
      rw [asked] at answers
      exact .still asked rfl answers
    | some x =>
      rw [asked] at answers
      exact .asks asked rfl answers
  | call r =>
    cases acted
    exact .still rfl rfl rfl
  | callAll =>
    cases acted
    exact .still rfl rfl (congrArg _ (System.callEach_site _ sys))
  | receive =>
    obtain ⟨⟨q, line⟩, received, rfl⟩ := Option.map_eq_some_iff.1 acted
    obtain ⟨rest, waits, rfl⟩ := RequestLine.receive_eq received
    exact .receives rfl waits rfl
  | step t =>
    cases System.turn_of_step acted with
    | get ht => exact .still rfl (snapshot?_eq_none ht nofun) rfl
    | arrive ht => exact .still rfl (snapshot?_eq_none ht nofun) rfl
    | enter ht _ => exact .still rfl (snapshot?_eq_none ht nofun) rfl
    | @begin r k s cycle ht begun =>
      have follows := Cycle.begin_follows (w := w) (c := c) b.gives_any r sys.site
      rw [begun] at follows
      exact .begins rfl (snapshot?_entered ht) (follows.line quiet)
    | pass ht => exact .still rfl (snapshot?_eq_none ht nofun) rfl
    | release ht => exact .still rfl (snapshot?_eq_none ht nofun) rfl
  | answer t a =>
    obtain ⟨r, k, st, cursor, s, cycle, ht, resumed, rfl⟩ := System.turn_of_answer acted
    obtain ⟨fits, warrants⟩ : (Phase.waiting k st cursor).Ready c := ready ht
    have follows : Cycle.Follows w b c (fun _ _ => True) r (sys.site, st)
        (Cycle.resume w b r st cursor a sys.site) :=
      Cycle.resume_follows b.gives_any r fits warrants trivial
    rw [resumed] at follows
    exact .still rfl rfl (follows.line quiet)

/-! ## Marks -/

/-- While no review of the class begins, its mark only changes with a request that is queued. -/
theorem System.LineStep.mark {l : RequestLine} (h : sys.LineStep w b a l) {r : ResourceClass}
    (none : ∀ snap, sys.snapshot? a ≠ some (r, snap)) :
    (l.isPending r).toNat = (sys.site.line.isPending r).toNat +
      if sys.requested? w b a = some (r, .queued) then 1 else 0 := by
  cases h with
  | @asks q o asked _ asks =>
    rw [asked]
    cases asks with
    | queued source free waits marks =>
      rw [marks]
      by_cases e : r = q
      · subst e
        rw [free, decide_eq_true rfl, if_pos rfl]
        rfl
      · rw [decide_eq_false e, if_neg fun same => e (Prod.mk.inj (Option.some.inj same)).1.symm]
        rfl
    | other ne _ _ marks =>
      rw [marks, if_neg fun same => ne (Prod.mk.inj (Option.some.inj same)).2]
      rfl
  | receives received _ e =>
    rw [received, e]
    rfl
  | @begins q snap asked snapped e =>
    have other : r ≠ q := fun same => none snap (same ▸ snapped)
    rw [asked, e, RequestLine.isPending_begin, decide_eq_false other]
    rfl
  | still asked _ e =>
    rw [asked, e]
    rfl

/-- A mark is new with a request that waits, or it was there and no review has begun. -/
theorem System.LineStep.marked {l : RequestLine} (h : sys.LineStep w b a l) {r : ResourceClass}
    (marked : l.isPending r = true) : (∃ q ∈ l.waiting, q.resource = r) ∨
      sys.site.line.isPending r = true ∧ ∀ snap, sys.snapshot? a ≠ some (r, snap) := by
  cases h with
  | @asks q o _ snapped asks =>
    rw [snapped]
    cases asks with
    | queued source free waits marks =>
      rw [marks, Bool.or_eq_true, decide_eq_true_iff] at marked
      rcases marked with rfl | before
      · refine .inl ⟨⟨r, source⟩, ?_, rfl⟩
        rw [waits]
        exact List.mem_append_right _ List.mem_cons_self
      · exact .inr ⟨before, nofun⟩
    | other _ _ _ marks =>
      rw [marks] at marked
      exact .inr ⟨marked, nofun⟩
  | receives received _ e =>
    subst received
    rw [e] at marked
    exact .inr ⟨marked, nofun⟩
  | @begins q snap _ snapped e =>
    rw [e, RequestLine.isPending_begin, Bool.and_eq_true, Bool.not_eq_true'] at marked
    refine .inr ⟨marked.2, ?_⟩
    intro snap' same
    rw [snapped] at same
    cases same
    rw [decide_eq_true rfl] at marked
    exact nomatch marked.1
  | still _ snapped e =>
    rw [snapped]
    rw [e] at marked
    exact .inr ⟨marked, nofun⟩

end Actions

/-! ## Outstanding requests -/

/-- The review of the task has not begun. -/
def Phase.Unbegun : Phase L → Prop
  | called | handle _ | inLine _ | entered _ => True
  | _ => False

/-- The worker has called the task for a request that it took off the line. -/
def History.Received (h : History L) (t : TaskId) : Prop :=
  ∃ sys, (sys, Action.receive) ∈ h ∧ System.next sys = t

/-- A request for the class waits in the line, or was taken off it for a review that has not
begun. -/
def System.Outstanding (sys : System L) (h : History L) (r : ResourceClass) : Prop :=
  (∃ q ∈ sys.site.line.waiting, q.resource = r) ∨
    ∃ t φ, h.Received t ∧ sys.tasks.find? t = some ⟨r, φ⟩ ∧ φ.Unbegun

section Tasks

variable {sys sys' : System L} {t : TaskId} {r : ResourceClass} {φ ψ : Phase L}

/-- A review begins with a task that holds the lock. -/
theorem Phase.Leads.unbegun (leads : φ.Leads ψ) (hφ : φ.Unbegun) (begins : ∀ k, φ ≠ .entered k) :
    ψ.Unbegun := by
  cases leads with
  | get | enter | line | next => trivial
  | begin => exact absurd rfl (begins _)
  | resume | pass | release => exact hφ.elim

variable [Limiter L] {w : Wiring} {b : Behaviour} {c : Chain L} {a : Action} {h : History L}

/-- The action of a task that holds the lock begins its review. -/
theorem System.snapshot?_own {k : LockId} (acted : sys.act w b c a = some sys')
    (own : a.task? = some t) (ht : sys.tasks.find? t = some ⟨r, .entered k⟩) :
    sys.snapshot? a = some (r, sys.site.queue.snapshot r) := by
  cases a with
  | step t' =>
    cases own
    exact snapshot?_entered ht
  | answer t' x =>
    cases own
    obtain ⟨_, _, _, _, _, _, found, -⟩ := turn_of_answer acted
    cases ht.symm.trans found
  | move _ | call _ | callAll | receive => cases own

theorem System.act_unbegun (orderly : sys.Orderly) (acted : sys.act w b c a = some sys')
    (none : ∀ snap, sys.snapshot? a ≠ some (r, snap)) (ht : sys.tasks.find? t = some ⟨r, φ⟩)
    (hφ : φ.Unbegun) : ∃ ψ, sys'.tasks.find? t = some ⟨r, ψ⟩ ∧ ψ.Unbegun := by
  by_cases own : a.task? = some t
  · obtain ⟨ψ, leads, found⟩ := act_own acted own ht
    refine ⟨ψ, found, leads.unbegun hφ ?_⟩
    rintro k rfl
    exact none _ (snapshot?_own acted own ht)
  · exact ⟨φ, orderly.act_other acted own ht, hφ⟩

/-- A request stays outstanding until a review of its class begins. -/
theorem System.Outstanding.act (out : sys.Outstanding h r) (orderly : sys.Orderly)
    (line : sys.LineStep w b a sys'.site.line) (acted : sys.act w b c a = some sys')
    (none : ∀ snap, sys.snapshot? a ≠ some (r, snap)) :
    sys'.Outstanding (h ++ [(sys, a)]) r := by
  have later : ∀ t, h.Received t → History.Received (h ++ [(sys, a)]) t :=
    fun t ⟨sys₀, mem, e⟩ => ⟨sys₀, List.mem_append_left _ mem, e⟩
  rcases out with ⟨q, mem, rfl⟩ | ⟨t, φ, received, ht, hφ⟩
  · cases line with
    | asks _ _ asks =>
      refine .inl ⟨q, ?_, rfl⟩
      cases asks with
      | queued _ _ waits _ =>
        rw [waits]
        exact List.mem_append_left _ mem
      | other _ _ waits _ =>
        rw [waits]
        exact mem
    | @receives first rest received waits e =>
      rw [waits] at mem
      rcases List.mem_cons.1 mem with rfl | mem
      · -- The request itself is taken off the line, and its task is the one to be made next.
        subst received
        obtain ⟨⟨q', line⟩, taken, rfl⟩ := Option.map_eq_some_iff.1 acted
        obtain ⟨_, waits', -⟩ := RequestLine.receive_eq taken
        cases waits.symm.trans waits'
        have here : (sys, Action.receive) ∈ h ++ [(sys, Action.receive)] :=
          List.mem_append_right _ List.mem_cons_self
        refine .inr ⟨sys.next, .called, ⟨sys, here, rfl⟩, ?_, trivial⟩
        show (sys.tasks.insert sys.next _).find? sys.next = _
        rw [Table.find?_insert, if_pos rfl]
      · exact .inl ⟨q, e ▸ mem, rfl⟩
    | begins _ _ e => exact .inl ⟨q, e ▸ mem, rfl⟩
    | still _ _ e => exact .inl ⟨q, e ▸ mem, rfl⟩
  · obtain ⟨ψ, found, hψ⟩ := act_unbegun orderly acted none ht hφ
    exact .inr ⟨t, ψ, later t received, found, hψ⟩

end Tasks

/-! ## Items in snapshots -/

namespace Queue

/-- The item is in the queue and can run. -/
def Offers (q : Queue) (item : WorkItem) : Prop :=
  ∃ link, q.items.find? item.id = some ⟨item, .buildable, link⟩

/-- A snapshot has every item of its class that can run. -/
theorem Offers.mem_snapshot {q : Queue} {item : WorkItem} (h : q.Offers item) :
    item ∈ (q.snapshot item.resource).items.map (·.item) := by
  obtain ⟨link, found⟩ := h
  have listed : (⟨item, .buildable, link⟩ : QueuedItem) ∈ q.buildable item.resource := by
    refine List.mem_filter.2 ⟨Table.mem_values.2 ⟨item.id, found⟩, ?_⟩
    exact Bool.and_eq_true_iff.2 ⟨rfl, beq_self_eq_true _⟩
  refine List.mem_map.2 ⟨⟨item, q.live link⟩, ?_, rfl⟩
  exact mem_arrange.2 (List.mem_map.2 ⟨_, listed, rfl⟩)

end Queue

/-! ## Runs -/

/-- How many requests for the class were queued. -/
def History.queued (w : Wiring) (b : Behaviour) (h : History L) (r : ResourceClass) : Nat :=
  h.countP fun e => decide (e.1.requested? w b e.2 = some (r, .queued))

section Runs

variable [Limiter L] {w : Wiring} {b : Behaviour} {c : Chain L} {limiter : L} {line : RequestLine}
  {h h₁ h₂ : History L} {mid sys sys' : System L} {a : Action} {r : ResourceClass}

/-- Every action of a run takes one step on the line. -/
theorem Run.lineStep (quiet : c.AsksNothing) (run : Run w b c {} (.idle limiter line) h sys)
    (acted : sys.act w b c a = some sys') : sys.LineStep w b a sys'.site.line := by
  obtain ⟨f, -, shows', -⟩ := run.shown b.gives_any
  exact System.lineStep quiet shows'.ready acted

/-- Between two reviews of a class its mark counts the requests that were queued. -/
theorem Run.marks (quiet : c.AsksNothing) (before : Run w b c {} (.idle limiter line) h₁ mid)
    (after : Run w b c {} mid h₂ sys) (none : ∀ snap, (r, snap) ∉ History.snapshots h₂) :
    (sys.site.line.isPending r).toNat =
      (mid.site.line.isPending r).toNat + History.queued w b h₂ r := by
  induction after with
  | start => rfl
  | @next h sys a sys' run _ acted ih =>
    have here : ∀ snap, sys.snapshot? a ≠ some (r, snap) := by
      intro snap same
      refine none snap ?_
      rw [History.snapshots_append, same]
      exact List.mem_append_right _ List.mem_cons_self
    have earlier : ∀ snap, (r, snap) ∉ History.snapshots h := by
      intro snap mem
      refine none snap ?_
      rw [History.snapshots_append]
      exact List.mem_append_left _ mem
    have step := ((before.append run).lineStep quiet acted).mark here
    have counted : History.queued w b (h ++ [(sys, a)]) r = History.queued w b h r +
        if sys.requested? w b a = some (r, .queued) then 1 else 0 := by
      unfold History.queued
      rw [List.countP_append, List.countP_singleton]
      simp only [decide_eq_true_eq]
    have sofar := ih earlier
    omega

/-- A class that is marked has a request outstanding. -/
theorem Run.outstanding (quiet : c.AsksNothing) {n : Nat}
    (run : Run w b c {} (.idle limiter (.ofCapacity n)) h sys)
    (marked : sys.site.line.isPending r = true) : sys.Outstanding h r := by
  induction run with
  | start => cases marked
  | next run _ acted ih =>
    have step := run.lineStep quiet acted
    rcases step.marked marked with waits | ⟨before, none⟩
    · exact .inl waits
    · exact (ih before).act (run.orderly (.idle limiter _)) step acted none

/-- After a request that was queued or merged, an item of the class that can run all the time is
found by a review, or a request is outstanding. -/
theorem Run.found_or_outstanding (quiet : c.AsksNothing) {n : Nat}
    (before : Run w b c {} (.idle limiter (.ofCapacity n)) h₁ mid) (after : Run w b c {} mid h₂ sys)
    {item : WorkItem} (marked : mid.site.line.isPending item.resource = true)
    (offered : ∀ e ∈ h₂, e.1.site.queue.Offers item) :
    (∃ snap, (item.resource, snap) ∈ History.snapshots h₂ ∧ item ∈ snap.items.map (·.item)) ∨
      sys.Outstanding (h₁ ++ h₂) item.resource := by
  by_cases begun : ∃ snap, (item.resource, snap) ∈ History.snapshots h₂
  · obtain ⟨snap, mem⟩ := begun
    obtain ⟨⟨s, a⟩, he, taken⟩ := List.mem_filterMap.1 mem
    have found := (offered _ he).mem_snapshot
    rw [← System.eq_of_snapshot? taken] at found
    exact .inl ⟨snap, mem, found⟩
  · have none : ∀ snap, (item.resource, snap) ∉ History.snapshots h₂ := fun snap mem =>
      begun ⟨snap, mem⟩
    have marks := before.marks quiet after none
    rw [marked, Bool.toNat_true] at marks
    have still : sys.site.line.isPending item.resource = true := by
      cases e : sys.site.line.isPending item.resource with
      | true => rfl
      | false =>
        rw [e, Bool.toNat_false] at marks
        omega
    exact .inr ((before.append after).outstanding quiet still)

/-- After a request that is queued or merged, the class is marked. -/
theorem RequestLine.Asks.marked {l l' : RequestLine} {o : RequestOutcome} (h : l.Asks r l' o)
    (kept : o = .queued ∨ o = .coalesced) : l'.isPending r = true := by
  cases h with
  | queued _ _ _ marks =>
    rw [marks, decide_eq_true rfl]
    rfl
  | other ne merged _ marks =>
    rw [marks]
    exact merged (kept.resolve_left ne)

omit [Limiter L] in
theorem Move.requested?_of_announcement? {s : Site L} {m : Move} {item : WorkItem}
    {o : RequestOutcome} (h : m.announcement? w b s = some (item, .requested o)) :
    m.requested? w b s = some (item.resource, o) := by
  cases m with
  | submitBuildable item' => exact congrArg requestOf h
  | makeBuildable id => exact congrArg requestOf h
  | _ => cases h

/-- No trigger is lost. A class that is marked has a request outstanding; so an item whose trigger
was told that its request is queued or merged, and which can run ever since, was found by a review
that has begun since, or a request for its class is outstanding; and between two reviews of a class
at most one request for it is queued. -/
theorem Run.no_lost_trigger (quiet : c.AsksNothing) {n : Nat}
    (run : Run w b c {} (.idle limiter (.ofCapacity n)) h sys) :
    (∀ r, sys.site.line.isPending r = true → sys.Outstanding h r) ∧
    (∀ h₁ sys₁ m h₂ item o, h = h₁ ++ (sys₁, .move m) :: h₂ →
      m.announcement? w b sys₁.site = some (item, .requested o) → o = .queued ∨ o = .coalesced →
      (∀ e ∈ h₂, e.1.site.queue.Offers item) →
      (∃ snap, (item.resource, snap) ∈ History.snapshots h₂ ∧ item ∈ snap.items.map (·.item)) ∨
        sys.Outstanding h item.resource) ∧
    ∀ h₁ h₂ h₃ r, h = h₁ ++ h₂ ++ h₃ → (∀ snap, (r, snap) ∉ History.snapshots h₂) →
      History.queued w b h₂ r ≤ 1 := by
  refine ⟨fun r marked => run.outstanding quiet marked, ?_, ?_⟩
  · intro h₁ sys₁ m h₂ item o e announced kept offered
    rw [List.append_cons] at e
    subst e
    obtain ⟨mid, before, after⟩ := run.split
    obtain ⟨-, moved⟩ := before.last
    cases moved
    have answers := m.answers (w := w) (b := b) sys₁.site
    rw [Move.requested?_of_announcement? announced] at answers
    exact before.found_or_outstanding quiet after (answers.marked kept) offered
  · intro h₁ h₂ h₃ r e none
    subst e
    obtain ⟨mid, first, -⟩ := run.split
    obtain ⟨mid₁, before, after⟩ := first.split
    have marks := before.marks quiet after none
    have one := Bool.toNat_le (mid.site.line.isPending r)
    omega

end Runs

/-- The worker has taken the only request, and the class is marked until the review begins. -/
theorem outstanding_of_sample : ∃ h sys, Run Sample.wiring Sample.behaviour Sample.chain {}
    Sample.start h sys ∧ sys.site.line.isPending .unlabeled = true ∧ sys.site.line.waiting = [] ∧
    sys.Outstanding h .unlabeled := by
  obtain ⟨h, sys, done, marked, none⟩ : ∃ h sys, Sample.start.replay Sample.wiring
      Sample.behaviour Sample.chain Sample.arrival [] = some (h, sys) ∧
      sys.site.line.isPending .unlabeled = true ∧ sys.site.line.waiting = [] :=
    ⟨_, _, rfl, rfl, rfl⟩
  have allowed := Sample.allowed {} (fun _ => trivial) (fun _ _ => trivial)
  have run := Run.of_replay done .start fun a mem =>
    allowed a (List.mem_append_left _ (List.mem_append_left _ mem))
  have kept := Run.no_lost_trigger Sample.plain.asksNothing run
  exact ⟨h, sys, run, marked, none, kept.1 .unlabeled marked⟩

end Muster
