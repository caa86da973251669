import Muster.Proofs.Run

/-!
# Queue operations

What can be done to a queue, as data, and a queue after any number of operations. An operation that
fails leaves the queue as it was. Others do nothing to the queue of a site but carry out such
operations, and they put no capacity in flight and report no links.

**Main statements.** `assign_ok`: what it takes to run an item, and what becomes of the queue.
`Op.does`: the cases of an operation, from which each invariant of queues is derived.
`Move.queue_eq_run`: what a move does to the queue of a site.
-/

namespace Muster

namespace Queue

/-- What can be done to a queue. -/
inductive Op where
  | submit (item : WorkItem)
  | submitBuildable (item : WorkItem)
  | makeBuildable (id : WorkItemId)
  | cancel (id : WorkItemId)
  | track (link : Link)
  | recordPending (planned : List PlannedCapacity)
  | online (id : PlannedId)
  | assign (id : WorkItemId)

/-- The queue that an operation gives, or the queue as it was if the operation failed. -/
def orStay {ε : Type} (q : Queue) : Except ε Queue → Queue
  | .ok q' => q'
  | .error _ => q

/-- The queue in which an item can run, if the item is there. -/
def withBuildable (q : Queue) (id : WorkItemId) : Queue :=
  q.orStay ((q.makeBuildable id).map Prod.fst)

/-- The queue after an operation. -/
def Op.apply (q : Queue) : Op → Queue
  | submit item => q.submit item
  | submitBuildable item => (q.submit item).withBuildable item.id
  | makeBuildable id => q.withBuildable id
  | cancel id => (q.cancel id).getD q
  | track link => q.orStay (q.track link)
  | recordPending planned => q.recordPending planned
  | online id => q.orStay (q.online id)
  | assign id => q.orStay (q.assign id)

/-- The queue after operations, one after the other. -/
def run (q : Queue) (ops : List Op) : Queue := ops.foldl Op.apply q

@[simp] theorem run_nil (q : Queue) : q.run [] = q := rfl

@[simp] theorem run_cons (q : Queue) (op : Op) (ops : List Op) :
    q.run (op :: ops) = (op.apply q).run ops := rfl

@[simp] theorem run_append (q : Queue) (ops ops' : List Op) :
    q.run (ops ++ ops') = (q.run ops).run ops' :=
  List.foldl_append

/-- What every operation keeps, any number of operations keeps. -/
theorem run_keeps {P : Queue → Prop} {ops : List Op} (step : ∀ q, ∀ op ∈ ops, P q → P (op.apply q))
    {q : Queue} (hq : P q) : P (q.run ops) := by
  induction ops generalizing q with
  | nil => exact hq
  | cons op ops ih =>
    exact ih (fun q op mem => step q op (List.mem_cons_of_mem _ mem))
      (step q op List.mem_cons_self hq)

/-! ## Items in line -/

theorem place_perm (p : PendingItem) (l : List PendingItem) : (place p l).Perm (p :: l) := by
  induction l with
  | nil => exact .refl _
  | cons x rest ih =>
    simp only [place]
    split
    · exact (ih.cons x).trans (.swap _ _ _)
    · exact .refl _

theorem arrange_perm (l : List PendingItem) : (arrange l).Perm l := by
  induction l with
  | nil => exact .refl _
  | cons x rest ih => exact (place_perm x (arrange rest)).trans (ih.cons x)

theorem mem_place {p x : PendingItem} {l : List PendingItem} : x ∈ place p l ↔ x = p ∨ x ∈ l :=
  (place_perm p l).mem_iff.trans List.mem_cons

theorem mem_arrange {x : PendingItem} {l : List PendingItem} : x ∈ arrange l ↔ x ∈ l :=
  (arrange_perm l).mem_iff

/-- Whatever leaves the items alone leaves the line alone. -/
theorem place_map {f : PendingItem → PendingItem} (item : ∀ x, (f x).item = x.item)
    (p : PendingItem) (l : List PendingItem) : place (f p) (l.map f) = (place p l).map f := by
  induction l with
  | nil => rfl
  | cons x rest ih =>
    simp only [List.map_cons, place, item]
    split
    · rw [ih, List.map_cons]
    · rfl

theorem arrange_map {f : PendingItem → PendingItem} (item : ∀ x, (f x).item = x.item)
    (l : List PendingItem) : arrange (l.map f) = (arrange l).map f := by
  induction l with
  | nil => rfl
  | cons x rest ih =>
    show place (f x) (arrange (rest.map f)) = (place x (arrange rest)).map f
    rw [ih, place_map item]

/-! ## What operations do -/

/-- The queue without an item that runs and without the idle unit on which it runs. -/
def spend (q : Queue) (id : WorkItemId) (e : QueuedItem) : Queue :=
  { q with
    items := q.items.erase id
    available := q.available.insert e.item.resource (q.availableOf e.item.resource - 1) }

variable {q q' : Queue}

/-- An item that runs was buildable and had an idle unit. Its link, if it counts, is handed on. -/
theorem assign_ok {id : WorkItemId} (h : q.assign id = .ok q') :
    ∃ e, q.items.find? id = some e ∧ e.state = .buildable ∧ q.availableOf e.item.resource ≠ 0 ∧
      (q.live e.link = none ∧ q' = q.spend id e ∨
        ∃ p, q.live e.link = some p ∧ q' = (q.spend id e).bequeath e.item.resource p) := by
  unfold assign at h
  split at h
  · cases h
  · rename_i e found
    by_cases waits : e.state ≠ .buildable
    · rw [if_pos waits] at h
      cases h
    · rw [if_neg waits] at h
      by_cases idle : q.availableOf e.item.resource = 0
      · rw [if_pos idle] at h
        cases h
      · rw [if_neg idle] at h
        refine ⟨e, found, not_not.1 waits, idle, ?_⟩
        split at h
        · rename_i dead
          cases h
          exact .inl ⟨dead, rfl⟩
        · rename_i p live
          cases h
          exact .inr ⟨p, live, rfl⟩

/-- An item that can run now was waiting or could run before. -/
theorem makeBuildable_ok {id : WorkItemId} {ready : Option WorkItem}
    (h : q.makeBuildable id = .ok (q', ready)) :
    ∃ e, q.items.find? id = some e ∧ (e.state = .buildable ∧ q' = q ∨
      q' = { q with items := q.items.insert id { e with state := .buildable } }) := by
  simp only [makeBuildable] at h
  split at h
  · cases h
  · rename_i e found
    by_cases before : e.state = .buildable
    · rw [if_pos before] at h
      cases h
      exact ⟨e, found, .inl ⟨before, rfl⟩⟩
    · rw [if_neg before] at h
      cases h
      exact ⟨e, found, .inr rfl⟩

theorem cancel_some {id : WorkItemId} (h : q.cancel id = some q') :
    q' = { q with items := q.items.erase id } := by
  simp only [cancel] at h
  split at h <;> cases h
  rfl

/-- A link that is not refused is the link of its item from then on. -/
theorem track_ok {link : Link} (h : q.track link = .ok q') :
    ∃ e, q.items.find? link.item = some e ∧
      q' = { q with items := q.items.insert link.item { e with link := some link.planned } } := by
  simp only [track] at h
  split at h
  · cases h
  · rename_i e found
    refine ⟨e, found, ?_⟩
    split at h
    · split at h <;> cases h
      rfl
    · cases h
      rfl

/-- The operation fails. -/
def Op.Refused (q : Queue) : Op → Prop
  | cancel id => q.cancel id = none
  | track link => ∃ e, q.track link = .error e
  | online id => ∃ e, q.online id = .error e
  | assign id => ∃ e, q.assign id = .error e
  | _ => False

/-- What an operation makes of a queue: what it is meant to, or nothing if it fails. -/
inductive Op.Does (q : Queue) : Op → Queue → Prop
  | submit (item : WorkItem) : Does q (.submit item) (q.submit item)
  | submitBuildable (item : WorkItem) :
    Does q (.submitBuildable item) ((q.submit item).withBuildable item.id)
  | makeBuildable (id : WorkItemId) : Does q (.makeBuildable id) (q.withBuildable id)
  | cancel {id : WorkItemId} {q' : Queue} : q.cancel id = some q' → Does q (.cancel id) q'
  | track {link : Link} {q' : Queue} : q.track link = .ok q' → Does q (.track link) q'
  | recordPending (planned : List PlannedCapacity) :
    Does q (.recordPending planned) (q.recordPending planned)
  | online {id : PlannedId} {q' : Queue} : q.online id = .ok q' → Does q (.online id) q'
  | assign {id : WorkItemId} {q' : Queue} : q.assign id = .ok q' → Does q (.assign id) q'
  | refused {op : Op} : op.Refused q → Does q op q

theorem Op.does (op : Op) (q : Queue) : op.Does q (op.apply q) := by
  cases op with
  | submit item => exact .submit item
  | submitBuildable item => exact .submitBuildable item
  | makeBuildable id => exact .makeBuildable id
  | recordPending planned => exact .recordPending planned
  | cancel id =>
    simp only [apply]
    cases gone : q.cancel id with
    | none => exact .refused gone
    | some q' => exact .cancel gone
  | track link =>
    simp only [apply]
    cases tracked : q.track link with
    | error e => exact .refused ⟨e, tracked⟩
    | ok q' => exact .track tracked
  | online id =>
    simp only [apply]
    cases landed : q.online id with
    | error e => exact .refused ⟨e, landed⟩
    | ok q' => exact .online landed
  | assign id =>
    simp only [apply]
    cases ran : q.assign id with
    | error e => exact .refused ⟨e, ran⟩
    | ok q' => exact .assign ran

end Queue

variable {L : Type}

/-! ## Operations on a site -/

namespace Site

variable {w : Wiring} {b : Behaviour} {s s' s'' : Site L}

/-- Somebody asked providers for their headroom, though not in a review, and asked for reviews. -/
structure Inquires (s s' : Site L) : Prop where
  same : ∃ calls line journal, s' = { s with calls, line, journal }
  calls : ∃ new, s'.calls = s.calls ++ new ∧
    ∀ call ∈ new, call.review = none ∧ ∃ n answer, call.question = .headroom n answer

namespace Inquires

theorem refl (s : Site L) : s.Inquires s := ⟨⟨_, _, _, rfl⟩, [], by simp, by simp⟩

theorem trans (h : s.Inquires s') (h' : s'.Inquires s'') : s.Inquires s'' := by
  obtain ⟨⟨_, _, _, rfl⟩, new, calls, asked⟩ := h
  obtain ⟨⟨_, _, _, rfl⟩, new', calls', asked'⟩ := h'
  refine ⟨⟨_, _, _, rfl⟩, new ++ new', by rw [calls', calls, List.append_assoc], ?_⟩
  intro call mem
  exact (List.mem_append.1 mem).elim (asked call) (asked' call)

theorem queue (h : s.Inquires s') : s'.queue = s.queue := by
  obtain ⟨_, _, _, rfl⟩ := h.same
  rfl

end Inquires

/-- An event changes the journal at most. -/
theorem emit_frame (w : Wiring) (e : Event) (s : Site L) :
    ∃ journal, s.emit w e = { s with journal } := by
  simp only [emit]
  split <;> exact ⟨_, rfl⟩

/-- Links are reported one after the other; the tracker decides what becomes of the queue. -/
theorem tracks_frame (w : Wiring) (links : List Link) (s : Site L) :
    ∃ queue reported, links.foldl (track w) s = { s with queue, links := reported } := by
  induction links generalizing s with
  | nil => exact ⟨_, _, rfl⟩
  | cons link links ih => exact ih (s.track w link)

theorem inquires_emit (w : Wiring) (e : Event) (s : Site L) : s.Inquires (s.emit w e) := by
  obtain ⟨journal, same⟩ := emit_frame w e s
  rw [same]
  exact ⟨⟨_, _, _, rfl⟩, [], by simp, by simp⟩

theorem inquires_request (w : Wiring) (r : ResourceClass) (source : ReviewSource)
    (item : Option WorkItemId) (s : Site L) : s.Inquires (s.request w r source item).2 := by
  simp only [request]
  rcases s.line.request w.fastPath r source item with ⟨outcome, event, line⟩
  have moved : s.Inquires { s with line } := ⟨⟨_, _, _, rfl⟩, [], by simp, by simp⟩
  cases event with
  | none => exact moved
  | some e => exact moved.trans (inquires_emit w e _)

theorem inquires_announceTo (filter : Filter) (item : WorkItem) (ps : Registry) (s : Site L) :
    s.Inquires (s.announceTo w b filter item ps).2 := by
  induction ps generalizing s with
  | nil => exact .refl s
  | cons p rest ih =>
    simp only [announceTo]
    split
    · have asked : s.Inquires (s.askHeadroom b none p item.resource 0).2 :=
        ⟨⟨_, _, _, rfl⟩, _, rfl, by simp⟩
      split
      · rename_i s₁ said
        rw [said] at asked
        exact asked.trans (inquires_request w item.resource .fastPath (some item.id) s₁)
      · rename_i s₁ _ said
        rw [said] at asked
        exact asked.trans (ih s₁)
    · exact ih s

theorem inquires_notify (item : WorkItem) (s : Site L) : s.Inquires (s.notify w b item) := by
  simp only [notify, announce]
  split
  · split
    · exact inquires_announceTo _ item _ s
    · exact .refl s
  · exact .refl s

/-- Apart from the queue, an item that can run only makes the trigger inquire. -/
theorem inquires_makeBuildable (id : WorkItemId) (s : Site L) :
    Inquires { s with queue := s.queue.withBuildable id } (s.makeBuildable w b id).2 := by
  simp only [makeBuildable, Queue.withBuildable]
  cases h : s.queue.makeBuildable id with
  | error e => exact .refl s
  | ok x =>
    obtain ⟨queue, ready⟩ := x
    cases ready with
    | none => exact .refl _
    | some item => exact inquires_notify item _

theorem assignAll_calls (ids : List WorkItemId) (s : Site L) :
    (assignAll ids s).calls = s.calls := by
  induction ids generalizing s with
  | nil => rfl
  | cons id ids ih =>
    simp only [assignAll, assign]
    cases s.queue.assign id with
    | error e => rfl
    | ok q => exact ih { s with queue := q }

/-- Items run one after the other. -/
theorem assignAll_queue (ids : List WorkItemId) (s : Site L) :
    ∃ ops, (assignAll ids s).queue = s.queue.run ops ∧ ∀ op ∈ ops, ∃ id, op = .assign id := by
  induction ids generalizing s with
  | nil => exact ⟨[], rfl, by simp⟩
  | cons id ids ih =>
    simp only [assignAll, assign]
    cases h : s.queue.assign id with
    | error e => exact ⟨[], rfl, by simp⟩
    | ok q =>
      obtain ⟨ops, ran, assigns⟩ := ih { s with queue := q }
      refine ⟨.assign id :: ops, ?_, by simpa using assigns⟩
      rw [Queue.run_cons, Queue.Op.apply, h]
      exact ran

variable [Limiter L]

/-- Capacity comes online, one after the other. -/
theorem retires_queue (ids : List PlannedId) (s : Site L) :
    (ids.foldl retire s).queue = s.queue.run (ids.map .online) := by
  induction ids generalizing s with
  | nil => rfl
  | cons id ids ih =>
    rw [List.foldl_cons, ih, List.map_cons, Queue.run_cons]
    congr 1
    simp only [retire, online, Queue.Op.apply]
    cases s.queue.online id <;> rfl

theorem retires_calls (ids : List PlannedId) (s : Site L) :
    (ids.foldl retire s).calls = s.calls := by
  induction ids generalizing s with
  | nil => rfl
  | cons id ids ih =>
    rw [List.foldl_cons, ih]
    simp only [retire, online]
    cases s.queue.online id <;> rfl

end Site

/-- The operations that a move may carry out. -/
def Move.Performs : Move → Queue.Op → Prop
  | submit item, op => op = .submit item
  | submitBuildable item, op => op = .submitBuildable item
  | makeBuildable id, op => op = .makeBuildable id
  | cancel id, op => op = .cancel id
  | assign id, op => op = .assign id
  | online id, op => op = .online id
  | runReadyWork _, op => (∃ id, op = .online id) ∨ ∃ id, op = .assign id
  | release _, _ | request .., _ => False

/-- A move carries out operations on the queue, and leaves it alone otherwise. -/
theorem Move.queue_eq_run [Limiter L] {w : Wiring} {b : Behaviour} (m : Move) (s : Site L) :
    ∃ ops, (m.apply w b s).queue = s.queue.run ops ∧ ∀ op ∈ ops, m.Performs op := by
  cases m with
  | submit item => exact ⟨[.submit item], rfl, by simp [Performs]⟩
  | submitBuildable item =>
    exact ⟨[.submitBuildable item], (Site.inquires_makeBuildable item.id (s.submit item)).queue,
      by simp [Performs]⟩
  | makeBuildable id =>
    exact ⟨[.makeBuildable id], (Site.inquires_makeBuildable id s).queue, by simp [Performs]⟩
  | cancel id =>
    refine ⟨[.cancel id], ?_, by simp [Performs]⟩
    simp only [apply, Site.cancel, Queue.run_cons, Queue.run_nil, Queue.Op.apply]
    cases s.queue.cancel id <;> rfl
  | assign id =>
    refine ⟨[.assign id], ?_, by simp [Performs]⟩
    simp only [apply, Site.assign, Queue.run_cons, Queue.run_nil, Queue.Op.apply]
    cases s.queue.assign id <;> rfl
  | online id =>
    refine ⟨[.online id], ?_, by simp [Performs]⟩
    simp only [apply, Site.online, Queue.run_cons, Queue.run_nil, Queue.Op.apply]
    cases s.queue.online id <;> rfl
  | release id => exact ⟨[], rfl, by simp⟩
  | runReadyWork r =>
    simp only [apply, Site.runReadyWork]
    have retired := Site.retires_queue (s.queue.inFlightIds r) s
    generalize (s.queue.inFlightIds r).foldl Site.retire s = s₁ at retired ⊢
    obtain ⟨ops, ran, assigns⟩ := s₁.assignAll_queue ((s₁.queue.snapshot r).items.map (·.item.id))
    refine ⟨(s.queue.inFlightIds r).map .online ++ ops, ?_, ?_⟩
    · rw [ran, retired, Queue.run_append]
    · intro op mem
      rcases List.mem_append.1 mem with mem | mem
      · obtain ⟨id, -, rfl⟩ := List.mem_map.1 mem
        exact .inl ⟨id, rfl⟩
      · exact .inr (assigns op mem)
  | request r source item =>
    exact ⟨[], (Site.inquires_request w r source item s).queue, by simp⟩

/-- Nobody is asked anything when an answer is taken in, and the line of requests stays. -/
theorem Engine.accept_frame [Limiter L] (w : Wiring) (q : Request) (a : Answer) (s : Site L)
    (st : ReviewState) : ∃ queue limiter links journal created,
      (Engine.accept w q a s st).1 = { s with queue, limiter, links, journal, created } := by
  cases a with
  | error e =>
    obtain ⟨journal, same⟩ := Site.emit_frame w (.provisionFailed st.review q.provider.id
      q.resource.toLabel e.message) s
    exact ⟨_, _, _, journal, _, same⟩
  | ok planned =>
    simp only [Engine.accept]
    split
    · exact ⟨_, _, _, _, _, rfl⟩
    · obtain ⟨queue, links, tracked⟩ := Site.tracks_frame w
        (st.recordPlanned q.resource q.provider.id planned).1 { s with
          created := s.created ++ planned
          limiter := planned.foldl Engine.register s.limiter }
      obtain ⟨journal, same⟩ := Site.emit_frame w (.provisionRequested st.review q.provider.id
        q.resource.toLabel (PlannedCapacity.totalUnits planned) (planned.map (·.id))) _
      exact ⟨queue, _, links, journal, _, same.trans (by rw [tracked])⟩

/-- A review that ends puts what it planned in flight. -/
theorem Cycle.conclude_frame (w : Wiring) (r : ResourceClass) (s : Site L) (st : ReviewState)
    (t : Tally) : ∃ journal, (Cycle.conclude w r s st t).1 =
      { s with queue := s.queue.recordPending st.planned, journal } :=
  Site.emit_frame w _ _

/-- Others ask providers for their headroom at most. -/
theorem Move.calls_eq [Limiter L] {w : Wiring} {b : Behaviour} (m : Move) (s : Site L) :
    ∃ new, (m.apply w b s).calls = s.calls ++ new ∧
      ∀ call ∈ new, call.review = none ∧ ∃ n answer, call.question = .headroom n answer := by
  have quiet : ∀ {s' : Site L}, s'.calls = s.calls → ∃ new, s'.calls = s.calls ++ new ∧
      ∀ call ∈ new, call.review = none ∧ ∃ n answer, call.question = .headroom n answer :=
    fun same => ⟨[], by rw [same, List.append_nil], by simp⟩
  cases m with
  | submit item => exact quiet rfl
  | submitBuildable item => exact (Site.inquires_makeBuildable item.id (s.submit item)).calls
  | makeBuildable id => exact (Site.inquires_makeBuildable id s).calls
  | cancel id =>
    refine quiet ?_
    simp only [apply, Site.cancel]
    cases s.queue.cancel id <;> rfl
  | assign id =>
    refine quiet ?_
    simp only [apply, Site.assign]
    cases s.queue.assign id <;> rfl
  | online id =>
    refine quiet ?_
    simp only [apply, Site.online]
    cases s.queue.online id <;> rfl
  | release id => exact quiet rfl
  | runReadyWork r =>
    refine quiet ?_
    simp only [apply, Site.runReadyWork, Site.assignAll_calls, Site.retires_calls]
  | request r source item => exact (Site.inquires_request w r source item s).calls

end Muster
