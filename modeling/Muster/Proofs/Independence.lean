import Muster.Proofs.Bare

/-!
# Trackers and sinks have no influence

Two systems that differ only in their trackers and sinks, and do the same things in the same order,
stay alike: they are equal but for links and events. So they ask providers the same, give the same
answers and come to the same results. The proof is a simulation. What one stride, one engine, one
chain, one review and one action make of two things that are alike is alike again; links and events
are never read on the way.

**Main statement.** `Run.same_but_links`: for any two trackers that change nothing but links, and
any two sinks.
-/

namespace Muster

variable {L : Type}

/-- The tracker changes nothing in the queue but links. -/
def Tracker.ChangesOnlyLinks (tracker : Tracker) : Prop :=
  ∀ links q link q', tracker links q link = .ok q' → q'.bare = q.bare

theorem Tracker.changesOnlyLinks_failing : Tracker.failing.ChangesOnlyLinks :=
  fun _ _ _ _ h => nomatch h

theorem Tracker.changesOnlyLinks_queue : Tracker.queue.ChangesOnlyLinks := by
  intro links q link q' h
  obtain ⟨e, found, rfl⟩ := Queue.track_ok h
  have same : q.bare.items.insert link.item e.bare = q.bare.items :=
    Table.insert_eq_self (by rw [Queue.find?_bare, found, Option.map_some])
  rw [Queue.bare_insert]
  exact congrArg (fun items => { q.bare with items }) same

/-- The wirings differ only in the tracker, which changes only links, and in the sink. -/
structure Wiring.Alike (w₁ w₂ : Wiring) : Prop where
  fastPath : w₁.fastPath = w₂.fastPath
  trigger : w₁.trigger = w₂.trigger
  first : w₁.tracker.ChangesOnlyLinks
  second : w₂.tracker.ChangesOnlyLinks

theorem Wiring.Alike.bare_eq {w₁ w₂ : Wiring} (h : w₁.Alike w₂) : w₁.bare = w₂.bare := by
  simp only [bare, h.fastPath, h.trigger]

/-- The sites, and what two reviews know, are equal but for links and events. -/
structure Alike (x y : Site L × ReviewState) : Prop where
  site : x.1.bare = y.1.bare
  state : x.2.bare = y.2.bare

/-- Strategies of the host go by what is left without links and events. -/
def Chain.IgnoresLinks (c : Chain L) : Prop :=
  ∀ name ordinal apply, .custom name ordinal apply ∈ c → ∀ b s₁ s₂ st₁ st₂,
    Alike (s₁, st₁) (s₂, st₂) →
      (apply b s₁ st₁).1 = (apply b s₂ st₂).1 ∧ Alike (apply b s₁ st₁).2 (apply b s₂ st₂).2

theorem Chain.Plain.ignoresLinks {c : Chain L} (h : c.Plain) : c.IgnoresLinks :=
  fun _ _ _ mem => absurd mem (h _ _ _)

variable {w w₁ w₂ : Wiring} {b : Behaviour} {c : Chain L} {s s₁ s₂ : Site L}
  {st st₁ st₂ : ReviewState}

theorem ReviewState.unsatisfied_congr (h : st₁.bare = st₂.bare) (r : ResourceClass) :
    st₁.unsatisfied r = st₂.unsatisfied r := by
  rw [← unsatisfied_bare, h, unsatisfied_bare]

/-- Both providers answer the same, at once or later. -/
theorem Alike.askCapacity (h : Alike (s₁, st₁) (s₂, st₂)) (b : Behaviour) (q : Request) :
    (s₁.askCapacity b (some st₁.review) q).1 = (s₂.askCapacity b (some st₂.review) q).1 ∧
      Alike ((s₁.askCapacity b (some st₁.review) q).2, st₁)
        ((s₂.askCapacity b (some st₂.review) q).2, st₂) := by
  have review := congrArg ReviewState.review h.state
  have answer := congrArg (fun s => b.respond s.calls s.created.length q) h.site
  have asked := congrArg (fun s => (Site.askCapacity b (some st₂.review) q s).2) h.site
  refine ⟨answer, ?_, h.state⟩
  rw [show st₁.review = st₂.review from review]
  exact asked

theorem Site.bare_tracks (hw : w.tracker.ChangesOnlyLinks) (links : List Link) (s : Site L) :
    (links.foldl (track w) s).bare = s.bare := by
  induction links generalizing s with
  | nil => rfl
  | cons link links ih =>
    rw [List.foldl_cons, ih]
    simp only [track]
    cases h : w.tracker s.links s.queue link with
    | error e => rfl
    | ok q => simp only [bare, hw _ _ _ _ h]

namespace Engine

variable [Limiter L] {e : Engine} {r : ResourceClass} {p : Provider}

theorem consult_bare (e : Engine) (b : Behaviour) (r : ResourceClass) (p : Provider) (s : Site L)
    (st : ReviewState) : e.consult b r p s.bare st.bare =
      (e.consult b r p s st).map id (Prod.map Site.bare ReviewState.bare) := by
  have eligible : e.isEligible b r p s.bare st.bare =
      (e.isEligible b r p s st).map id Site.bare := by
    simp only [isEligible]
    by_cases pass : (p.serves r && e.filter p r) = true
    · rw [if_pos pass, if_pos pass]
      have asked : s.bare.askHeadroom b (some st.bare.review) p r (st.bare.plannedFor p.id) =
        (s.askHeadroom b (some st.review) p r (st.plannedFor p.id)).map id Site.bare := rfl
      rw [asked]
      rcases s.askHeadroom b (some st.review) p r (st.plannedFor p.id) with ⟨answer, s₁⟩
      rcases answer with error | yes
      · rfl
      · cases yes <;> rfl
    · rw [if_neg pass, if_neg pass]
      rfl
  simp only [consult, eligible]
  rcases e.isEligible b r p s st with ⟨yes, s₁⟩
  cases yes with
  | false => rfl
  | true =>
    have limit : readLimit s₁.bare ⟨p.id, r⟩ = readLimit s₁ ⟨p.id, r⟩ := rfl
    simp only [Prod.map, id_eq, limit, ReviewState.remainingLimit_bare,
      ReviewState.unsatisfied_bare]

theorem consult_alike (h : Alike (s₁, st₁) (s₂, st₂)) (e : Engine) (b : Behaviour)
    (r : ResourceClass) (p : Provider) :
    (e.consult b r p s₁ st₁).1 = (e.consult b r p s₂ st₂).1 ∧
      Alike (e.consult b r p s₁ st₁).2 (e.consult b r p s₂ st₂).2 := by
  have site : s₁.bare = s₂.bare := h.site
  have state : st₁.bare = st₂.bare := h.state
  have same := (e.consult_bare b r p s₁ st₁).symm
  rw [site, state, consult_bare] at same
  exact ⟨congrArg (·.1) same, congrArg (·.2.1) same, congrArg (·.2.2) same⟩

/-- An answer brings the same capacity to both, and registers it with both. -/
theorem accept_alike (hw : w₁.Alike w₂) (h : Alike (s₁, st₁) (s₂, st₂)) (q : Request)
    (a : Answer) : Alike (accept w₁ q a s₁ st₁) (accept w₂ q a s₂ st₂) := by
  have site : s₁.bare = s₂.bare := h.site
  have state : st₁.bare = st₂.bare := h.state
  cases a with
  | error e =>
    refine ⟨?_, state⟩
    simp only [accept, Site.bare_emit, site]
  | ok planned =>
    simp only [accept]
    by_cases none : PlannedCapacity.totalUnits planned = 0
    · rw [if_pos none, if_pos none]
      exact ⟨congrArg (fun s : Site L => { s with created := s.created ++ planned }) site, state⟩
    · rw [if_neg none, if_neg none]
      constructor
      · simp only [Site.bare_emit, Site.bare_tracks hw.first, Site.bare_tracks hw.second]
        exact congrArg (fun s : Site L => { s with
          created := s.created ++ planned
          limiter := planned.foldl register s.limiter }) site
      · show (ReviewState.recordPlanned _ _ _ _).2.bare = (ReviewState.recordPlanned _ _ _ _).2.bare
        rw [← ReviewState.recordPlanned_bare, state, ReviewState.recordPlanned_bare]

end Engine

/-! ## Engines -/

/-- The engines got equally far, on sites that are alike. -/
inductive Progress.Alike : Progress L → Progress L → Prop
  | settled {s₁ s₂ : Site L} {st₁ st₂ : ReviewState} : Muster.Alike (s₁, st₁) (s₂, st₂) →
      Alike (.settled s₁ st₁) (.settled s₂ st₂)
  | waiting {s₁ s₂ : Site L} {st₁ st₂ : ReviewState} (pause : Pause) :
      Muster.Alike (s₁, st₁) (s₂, st₂) → Alike (.waiting s₁ st₁ pause) (.waiting s₂ st₂ pause)

namespace Engine

variable [Limiter L]

theorem visit_alike (hw : w₁.Alike w₂) (e : Engine) (r : ResourceClass)
    (later : List ResourceClass) (ps : Registry) (h : Alike (s₁, st₁) (s₂, st₂)) :
    (e.visit w₁ b r later ps s₁ st₁).Alike (e.visit w₂ b r later ps s₂ st₂) := by
  induction ps generalizing s₁ s₂ st₁ st₂ with
  | nil => exact .settled h
  | cons p rest ih =>
    simp only [visit, ReviewState.unsatisfied_congr h.state]
    by_cases covered : st₂.unsatisfied r = 0
    · rw [if_pos covered, if_pos covered]
      exact .settled h
    · rw [if_neg covered, if_neg covered]
      have consulted := consult_alike h e b r p
      revert consulted
      rcases e.consult b r p s₁ st₁ with ⟨units, s₁, st₁⟩
      rcases e.consult b r p s₂ st₂ with ⟨units', s₂, st₂⟩
      rintro ⟨same, h⟩
      obtain rfl : units = units' := same
      by_cases none : units = 0
      · simp only [if_pos none]
        exact ih h
      · simp only [if_neg none]
        have asked := h.askCapacity b ⟨p, r, units⟩
        revert asked
        rcases s₁.askCapacity b (some st₁.review) ⟨p, r, units⟩ with ⟨a, s₁⟩
        rcases s₂.askCapacity b (some st₂.review) ⟨p, r, units⟩ with ⟨a', s₂⟩
        rintro ⟨same, asked⟩
        obtain rfl : a = a' := same
        cases a with
        | none => exact .waiting _ asked
        | some a => exact ih (accept_alike hw asked ⟨p, r, units⟩ a)

theorem visitClasses_alike (hw : w₁.Alike w₂) (e : Engine) (rs : List ResourceClass)
    (h : Alike (s₁, st₁) (s₂, st₂)) :
    (e.visitClasses w₁ b rs s₁ st₁).Alike (e.visitClasses w₂ b rs s₂ st₂) := by
  induction rs generalizing s₁ s₂ st₁ st₂ with
  | nil => exact .settled h
  | cons r later ih =>
    have visited := e.visit_alike (b := b) hw r later e.providers h
    simp only [visitClasses]
    generalize e.visit w₁ b r later e.providers s₁ st₁ = g₁ at visited ⊢
    generalize e.visit w₂ b r later e.providers s₂ st₂ = g₂ at visited ⊢
    cases visited with
    | settled h => exact ih h
    | waiting pause h => exact .waiting pause h

theorem start_alike (hw : w₁.Alike w₂) (e : Engine) (h : Alike (s₁, st₁) (s₂, st₂)) :
    (e.start w₁ b s₁ st₁).Alike (e.start w₂ b s₂ st₂) := by
  have classes : st₁.classes.keys = st₂.classes.keys := by
    have keys := congrArg (fun st => st.classes.keys) h.state
    simpa only [ReviewState.bare, Table.keys_mapValues] using keys
  simp only [start, classes]
  split
  · exact e.visitClasses_alike hw _ h
  · exact .settled h

theorem resume_alike (hw : w₁.Alike w₂) (e : Engine) (pause : Pause) (a : Answer)
    (h : Alike (s₁, st₁) (s₂, st₂)) :
    (e.resume w₁ b pause a s₁ st₁).Alike (e.resume w₂ b pause a s₂ st₂) := by
  have accepted := accept_alike hw h pause.request a
  simp only [resume]
  revert accepted
  rcases accept w₁ pause.request a s₁ st₁ with ⟨s₁, st₁⟩
  rcases accept w₂ pause.request a s₂ st₂ with ⟨s₂, st₂⟩
  intro accepted
  have visited := e.visit_alike (b := b) hw pause.request.resource pause.classesLeft
    pause.providersLeft accepted
  simp only
  generalize e.visit w₁ b _ _ _ s₁ st₁ = g₁ at visited ⊢
  generalize e.visit w₂ b _ _ _ s₂ st₂ = g₂ at visited ⊢
  cases visited with
  | settled h => exact e.visitClasses_alike hw _ h
  | waiting pause h => exact .waiting pause h

end Engine

/-! ## Chains and reviews -/

/-- The chains got equally far, on sites that are alike. -/
inductive ChainProgress.Alike : ChainProgress L → ChainProgress L → Prop
  | finished {s₁ s₂ : Site L} {st₁ st₂ : ReviewState} (t : Tally) :
      Muster.Alike (s₁, st₁) (s₂, st₂) → Alike (.finished s₁ st₁ t) (.finished s₂ st₂ t)
  | waiting {s₁ s₂ : Site L} {st₁ st₂ : ReviewState} (cursor : Cursor L) :
      Muster.Alike (s₁, st₁) (s₂, st₂) → Alike (.waiting s₁ st₁ cursor) (.waiting s₂ st₂ cursor)

/-- The reviews got equally far. -/
inductive Cycle.Alike : Cycle L → Cycle L → Prop
  | waiting {st₁ st₂ : ReviewState} (cursor : Cursor L) : st₁.bare = st₂.bare →
      Alike (.waiting st₁ cursor) (.waiting st₂ cursor)
  | finished (outcome : Outcome) : Alike (.finished outcome) (.finished outcome)

namespace Cycle

/-- Reviews that are alike end with the same outcome and put the same in flight. -/
theorem settle_alike (r : ResourceClass) {g₁ g₂ : ChainProgress L} (h : g₁.Alike g₂) :
    (settle w₁ r g₁).1.bare = (settle w₂ r g₂).1.bare ∧
      (settle w₁ r g₁).2.Alike (settle w₂ r g₂).2 := by
  cases h with
  | waiting cursor h => exact ⟨h.site, .waiting cursor h.state⟩
  | @finished s₁ s₂ st₁ st₂ t h =>
    have site : s₁.bare = s₂.bare := h.site
    have state : st₁.bare = st₂.bare := h.state
    have planned := congrArg ReviewState.planned state
    have review := congrArg ReviewState.review state
    change st₁.planned = st₂.planned at planned
    change st₁.review = st₂.review at review
    constructor
    · simp only [settle, conclude, Site.bare_emit, planned]
      exact congrArg (fun s : Site L => { s with queue := s.queue.recordPending st₂.planned }) site
    · simp only [settle, conclude, ReviewState.unitsRequested, planned, review,
        ReviewState.unsatisfied_congr state]
      exact .finished _

/-- A review that begins captures the same but for the links. -/
theorem captured_alike (h : s₁.bare = s₂.bare) (r : ResourceClass) :
    Muster.Alike (opened r s₁, captured r s₁) (opened r s₂, captured r s₂) := by
  have bare : ∀ s : Site L, (captured r s.bare).bare = (captured r s).bare := by
    intro s
    have demand : (ClassDemand.ofSnapshot (s.bare.queue.snapshot r)).bare =
        (ClassDemand.ofSnapshot (s.queue.snapshot r)).bare := by
      show (ClassDemand.ofSnapshot (s.queue.bare.snapshot r)).bare = _
      simp only [Queue.snapshot_bare, ClassDemand.ofSnapshot, ClassDemand.bare, List.length_map,
        List.map_map]
      rfl
    simp only [captured, ReviewState.capture, ReviewState.withClass, List.foldl_cons,
      List.foldl_nil, ReviewState.bare, Table.mapValues_insert, demand]
    rfl
  refine ⟨congrArg (opened r) h, ?_⟩
  show (captured r s₁).bare = (captured r s₂).bare
  rw [← bare, h, bare]

end Cycle

section Reviews

variable [Limiter L]

theorem Chain.run_alike (hw : w₁.Alike w₂) (ignores : c.IgnoresLinks) (rest : Chain L)
    (hc : ∀ x ∈ rest, x ∈ c) (t : Tally) (h : Alike (s₁, st₁) (s₂, st₂)) :
    (Chain.run w₁ b rest t s₁ st₁).Alike (Chain.run w₂ b rest t s₂ st₂) := by
  induction rest generalizing t s₁ s₂ st₁ st₂ with
  | nil => exact .finished t h
  | cons strategy rest ih =>
    have hrest : ∀ x ∈ rest, x ∈ c := fun x hx => hc x (List.mem_cons_of_mem _ hx)
    cases strategy with
    | fallback => exact .finished _ h
    | engine e =>
      have started := e.start_alike (b := b) hw h
      simp only [Chain.run]
      generalize e.start w₁ b s₁ st₁ = g₁ at started ⊢
      generalize e.start w₂ b s₂ st₂ = g₂ at started ⊢
      cases started with
      | settled h => exact ih hrest _ h
      | waiting pause h => exact .waiting _ h
    | custom name ordinal apply =>
      have acted := ignores name ordinal apply (hc _ List.mem_cons_self) b s₁ s₂ st₁ st₂ h
      simp only [Chain.run]
      revert acted
      rcases apply b s₁ st₁ with ⟨result, s₁, st₁⟩
      rcases apply b s₂ st₂ with ⟨result', s₂, st₂⟩
      rintro ⟨same, h⟩
      obtain rfl : result = result' := same
      rcases result with error | decision
      · refine ih hrest _ ⟨?_, h.state⟩
        simp only [Site.bare_emit]
        exact h.site
      · cases decision with
        | proceed => exact ih hrest _ h
        | complete => exact .finished _ h

theorem Cursor.resume_alike (hw : w₁.Alike w₂) (ignores : c.IgnoresLinks) (cursor : Cursor L)
    (hc : ∀ x ∈ cursor.rest, x ∈ c) (a : Answer) (h : Alike (s₁, st₁) (s₂, st₂)) :
    (cursor.resume w₁ b a s₁ st₁).Alike (cursor.resume w₂ b a s₂ st₂) := by
  have resumed := cursor.engine.resume_alike (b := b) hw cursor.pause a h
  simp only [Cursor.resume]
  generalize cursor.engine.resume w₁ b cursor.pause a s₁ st₁ = g₁ at resumed ⊢
  generalize cursor.engine.resume w₂ b cursor.pause a s₂ st₂ = g₂ at resumed ⊢
  cases resumed with
  | settled h => exact Chain.run_alike hw ignores _ hc _ h
  | waiting pause h => exact .waiting _ h

namespace Cycle

theorem begin_alike (hw : w₁.Alike w₂) (ignores : c.IgnoresLinks) (r : ResourceClass)
    (h : s₁.bare = s₂.bare) : (begin w₁ b c r s₁).1.bare = (begin w₂ b c r s₂).1.bare ∧
      (begin w₁ b c r s₁).2.Alike (begin w₂ b c r s₂).2 :=
  settle_alike r (Chain.run_alike hw ignores c (fun _ hx => hx) {} (captured_alike h r))

theorem resume_alike (hw : w₁.Alike w₂) (ignores : c.IgnoresLinks) (r : ResourceClass)
    (cursor : Cursor L) (hc : ∀ x ∈ cursor.rest, x ∈ c) (a : Answer)
    (h : Muster.Alike (s₁, st₁) (s₂, st₂)) :
    (resume w₁ b r st₁ cursor a s₁).1.bare = (resume w₂ b r st₂ cursor a s₂).1.bare ∧
      (resume w₁ b r st₁ cursor a s₁).2.Alike (resume w₂ b r st₂ cursor a s₂).2 :=
  settle_alike r (Cursor.resume_alike hw ignores cursor hc a h)

end Cycle

end Reviews

/-! ## Systems -/

/-- The tasks review the same class and stand in the same place. -/
inductive Task.Alike : Task L → Task L → Prop
  | refl (task : Task L) : Alike task task
  | waiting {st₁ st₂ : ReviewState} (r : ResourceClass) (k : LockId) (cursor : Cursor L) :
      st₁.bare = st₂.bare → Alike ⟨r, .waiting k st₁ cursor⟩ ⟨r, .waiting k st₂ cursor⟩

theorem Task.Alike.outcome? {task₁ task₂ : Task L} (h : task₁.Alike task₂) :
    task₁.outcome? = task₂.outcome? := by
  cases h <;> rfl

theorem Cycle.Alike.task {cycle₁ cycle₂ : Cycle L} (h : cycle₁.Alike cycle₂) (r : ResourceClass)
    (k : LockId) : Task.Alike ⟨r, cycle₁.phase k⟩ ⟨r, cycle₂.phase k⟩ := by
  cases h with
  | waiting cursor same => exact .waiting r k cursor same
  | finished outcome => exact .refl _

/-- The systems are equal but for links and events. -/
structure System.Alike (sys₁ sys₂ : System L) : Prop where
  site : sys₁.site.bare = sys₂.site.bare
  locks : sys₁.locks = sys₂.locks
  next : sys₁.next = sys₂.next
  tasks : ∀ t, Option.Rel Task.Alike (sys₁.tasks.find? t) (sys₂.tasks.find? t)

namespace System.Alike

variable {sys₁ sys₂ : System L}

theorem refl (sys : System L) : sys.Alike sys := by
  refine ⟨rfl, rfl, rfl, fun t => ?_⟩
  cases sys.tasks.find? t with
  | none => exact .none
  | some task => exact .some (.refl task)

theorem outcome? (h : sys₁.Alike sys₂) (t : TaskId) : sys₁.outcome? t = sys₂.outcome? t := by
  have task := h.tasks t
  simp only [System.outcome?]
  generalize sys₁.tasks.find? t = task₁ at task ⊢
  generalize sys₂.tasks.find? t = task₂ at task ⊢
  cases task with
  | none => rfl
  | some same => exact same.outcome?

theorem put (h : sys₁.Alike sys₂) (t : TaskId) {r : ResourceClass} {φ₁ φ₂ : Phase L}
    (same : Task.Alike ⟨r, φ₁⟩ ⟨r, φ₂⟩) : (sys₁.put t r φ₁).Alike (sys₂.put t r φ₂) := by
  refine ⟨h.site, h.locks, h.next, fun t' => ?_⟩
  simp only [System.put, Table.find?_insert]
  by_cases e : t' = t
  · rw [if_pos e, if_pos e]
    exact .some same
  · rw [if_neg e, if_neg e]
    exact h.tasks t'

theorem withLocks (h : sys₁.Alike sys₂) (locks : ClassLocks) :
    System.Alike { sys₁ with locks } { sys₂ with locks } :=
  ⟨h.site, rfl, h.next, h.tasks⟩

theorem withSite (h : sys₁.Alike sys₂) {s₁ s₂ : Site L} (same : s₁.bare = s₂.bare) :
    System.Alike { sys₁ with site := s₁ } { sys₂ with site := s₂ } :=
  ⟨same, h.locks, h.next, h.tasks⟩

theorem spawn (h : sys₁.Alike sys₂) (r : ResourceClass) :
    (sys₁.spawn r).2.Alike (sys₂.spawn r).2 := by
  have put := h.put sys₁.next (.refl ⟨r, .called⟩)
  refine ⟨h.site, h.locks, congrArg (· + 1) h.next, ?_⟩
  intro t
  have task := put.tasks t
  simp only [System.spawn, System.put, ← h.next] at task ⊢
  exact task

theorem callEach (h : sys₁.Alike sys₂) (rs : List ResourceClass) :
    (sys₁.callEach rs).Alike (sys₂.callEach rs) := by
  induction rs generalizing sys₁ sys₂ with
  | nil => exact h
  | cons r rs ih => exact ih (h.spawn r)

end System.Alike

namespace System

variable [Limiter L] {sys₁ sys₂ : System L}

theorem step_alike (hw : w₁.Alike w₂) (ignores : c.IgnoresLinks) (h : sys₁.Alike sys₂)
    (t : TaskId) : Option.Rel Alike (sys₁.step w₁ b c t) (sys₂.step w₂ b c t) := by
  have task := h.tasks t
  generalize ht₁ : sys₁.tasks.find? t = o₁ at task
  generalize ht₂ : sys₂.tasks.find? t = o₂ at task
  cases task with
  | none =>
    simp only [step, ht₁, ht₂]
    exact .none
  | @some task₁ task₂ same =>
    obtain ⟨r, φ⟩ := task₁
    simp only [step, ht₁, ht₂]
    cases same with
    | waiting r k cursor same => exact .none
    | refl =>
      have put₁ := fun locks ψ => setPhase_eq { sys₁ with locks } ht₁ ψ
      have put₂ := fun locks ψ => setPhase_eq { sys₂ with locks } ht₂ ψ
      have here := fun locks ψ => (h.withLocks locks).put t (.refl ⟨r, ψ⟩)
      cases φ with
      | called =>
        simp only [put₁, put₂, h.locks]
        exact .some (here _ _)
      | handle k =>
        simp only [put₁, put₂, h.locks]
        exact .some (here _ _)
      | inLine k =>
        simp only [setPhase_eq sys₁ ht₁, setPhase_eq sys₂ ht₂, h.locks]
        split
        · exact .some (h.put t (.refl _))
        · exact .none
      | entered k =>
        have begun := Cycle.begin_alike (b := b) hw ignores r h.site
        simp only [afterReview_eq ht₁, afterReview_eq ht₂]
        exact .some ((h.withSite begun.1).put t (begun.2.task r k))
      | waiting k st cursor => exact .none
      | reviewed k o =>
        simp only [put₁, put₂, h.locks]
        exact .some (here _ _)
      | unlocked k o =>
        simp only [put₁, put₂, h.locks]
        exact .some (here _ _)
      | done o => exact .none

/-- Reviews that are alike take in the same answer. -/
theorem answer_alike (hw : w₁.Alike w₂) (ignores : c.IgnoresLinks) (h : sys₁.Alike sys₂)
    (ready : ∀ t r φ, sys₁.tasks.find? t = some ⟨r, φ⟩ → φ.Ready c) (t : TaskId) (a : Answer) :
    Option.Rel Alike (sys₁.answer w₁ b t a) (sys₂.answer w₂ b t a) := by
  have task := h.tasks t
  generalize ht₁ : sys₁.tasks.find? t = o₁ at task
  generalize ht₂ : sys₂.tasks.find? t = o₂ at task
  cases task with
  | none =>
    simp only [answer, ht₁, ht₂]
    exact .none
  | @some task₁ task₂ same =>
    obtain ⟨r, φ⟩ := task₁
    -- A task that waits is alike in one of two ways, and goes on in the same way.
    have goOn : ∀ {k : LockId} {st₁ st₂ : ReviewState} {cursor : Cursor L},
        φ = .waiting k st₁ cursor → task₂ = ⟨r, .waiting k st₂ cursor⟩ → st₁.bare = st₂.bare →
        Option.Rel Alike (sys₁.answer w₁ b t a) (sys₂.answer w₂ b t a) := by
      rintro k st₁ st₂ cursor rfl rfl state
      have halted : Muster.Alike (sys₁.site, st₁) (sys₂.site, st₂) := ⟨h.site, state⟩
      have rest := (ready t r _ ht₁).1.rest
      have resumed := Cycle.resume_alike (b := b) hw ignores r cursor rest a halted
      simp only [answer, ht₁, ht₂, afterReview_eq ht₁, afterReview_eq ht₂]
      exact .some ((h.withSite resumed.1).put t (resumed.2.task r k))
    cases same with
    | waiting _ k cursor state => exact goOn rfl rfl state
    | refl =>
      cases φ with
      | waiting k st cursor => exact goOn rfl rfl rfl
      | _ =>
        simp only [answer, ht₁, ht₂]
        exact .none

/-- The same action makes of systems that are alike systems that are alike. -/
theorem act_alike (hw : w₁.Alike w₂) (ignores : c.IgnoresLinks) (h : sys₁.Alike sys₂)
    (ready : ∀ t r φ, sys₁.tasks.find? t = some ⟨r, φ⟩ → φ.Ready c) (a : Action) :
    Option.Rel Alike (sys₁.act w₁ b c a) (sys₂.act w₂ b c a) := by
  cases a with
  | move m =>
    have moved : (m.apply w₁ b sys₁.site).bare = (m.apply w₂ b sys₂.site).bare := by
      rw [← Move.apply_bare, ← Move.apply_bare, h.site, hw.bare_eq]
    exact .some (h.withSite moved)
  | call r => exact .some (h.spawn r)
  | callAll =>
    have classes : sys₁.site.queue.pendingClasses = sys₂.site.queue.pendingClasses := by
      have bare := congrArg (fun s => s.queue.pendingClasses) h.site
      simpa only [Site.bare, Queue.pendingClasses_bare] using bare
    simp only [act, classes]
    exact .some (h.callEach _)
  | receive =>
    have line : sys₁.site.line = sys₂.site.line := show sys₁.site.bare.line = _ from h.site ▸ rfl
    simp only [act, line]
    cases sys₂.site.line.receive with
    | none => exact .none
    | some received =>
      obtain ⟨q, line⟩ := received
      have moved : System.Alike { sys₁ with site := { sys₁.site with line } }
          { sys₂ with site := { sys₂.site with line } } :=
        h.withSite (congrArg (fun s : Site L => { s with line }) h.site :)
      exact .some (moved.spawn q.resource)
  | step t => exact step_alike hw ignores h t
  | answer t a => exact answer_alike hw ignores h ready t a

/-- What others get back. -/
def reply (w : Wiring) (b : Behaviour) (sys : System L) : Action → Reply
  | .move m => m.reply w b sys.site
  | _ => .nothing

omit [Limiter L] in
theorem Alike.reply_eq (h : sys₁.Alike sys₂) (hw : w₁.Alike w₂) (a : Action) :
    sys₁.reply w₁ b a = sys₂.reply w₂ b a := by
  cases a with
  | move m =>
    simp only [reply]
    rw [← Move.reply_bare, ← m.reply_bare sys₂.site, h.site, hw.bare_eq]
  | _ => rfl

end System

/-! ## Runs -/

/-- What was done, oldest first. -/
def History.actions (h : History L) : List Action := h.map Prod.snd

/-- What others got back, oldest first. -/
def History.replies (w : Wiring) (b : Behaviour) (h : History L) : List Reply :=
  h.map fun (sys, a) => sys.reply w b a

section Runs

variable [Limiter L] {limiter : L} {line : RequestLine} {h₁ h₂ : History L} {sys₁ sys₂ : System L}

/-- Waiting tasks of a run wait with parts of its chain. -/
theorem Run.ready {h : History L} {sys : System L}
    (run : Run w b c {} (.idle limiter line) h sys) :
    ∀ t r φ, sys.tasks.find? t = some ⟨r, φ⟩ → φ.Ready c := by
  obtain ⟨f, -, shown, -⟩ := run.shown fun _ _ _ _ _ => trivial
  exact fun t r φ found => shown.ready found

/-- Runs that do the same are alike, and everybody gets the same back. -/
theorem Run.alike (hw : w₁.Alike w₂) (ignores : c.IgnoresLinks)
    (run₁ : Run w₁ b c {} (.idle limiter line) h₁ sys₁)
    (run₂ : Run w₂ b c {} (.idle limiter line) h₂ sys₂) (same : h₂.actions = h₁.actions) :
    sys₁.Alike sys₂ ∧ h₁.replies w₁ b = h₂.replies w₂ b := by
  induction run₁ generalizing h₂ sys₂ with
  | start =>
    obtain rfl := List.map_eq_nil_iff.1 same
    generalize e : ([] : History L) = h at run₂
    cases run₂ with
    | start => exact ⟨.refl _, rfl⟩
    | next _ _ _ => cases List.append_ne_nil_of_right_ne_nil _ (List.cons_ne_nil _ _) e.symm
  | @next h₁ before₁ a sys₁ run₁ allowed acted₁ ih =>
    cases run₂ with
    | start =>
      cases List.append_ne_nil_of_right_ne_nil _ (List.cons_ne_nil _ _)
        (List.map_eq_nil_iff.1 same.symm)
    | @next h₂ before₂ a₂ _ run₂ _ acted₂ =>
      simp only [History.actions, List.map_append, List.map_cons, List.map_nil] at same
      obtain ⟨before, last⟩ := List.append_inj' same rfl
      obtain rfl : a₂ = a := List.head_eq_of_cons_eq last
      obtain ⟨alike, replies⟩ := ih run₂ before
      have acted := System.act_alike (b := b) hw ignores alike run₁.ready a₂
      rw [acted₁, acted₂] at acted
      obtain ⟨acted⟩ := acted
      refine ⟨acted, ?_⟩
      simp only [History.replies, List.map_append, List.map_cons, List.map_nil] at replies ⊢
      rw [replies, alike.reply_eq hw]

/-- What can be done with one tracker and sink can be done with another. -/
theorem Run.matched (hw : w₁.Alike w₂) (ignores : c.IgnoresLinks)
    (run₁ : Run w₁ b c {} (.idle limiter line) h₁ sys₁) :
    ∃ h₂ sys₂, Run w₂ b c {} (.idle limiter line) h₂ sys₂ ∧ h₂.actions = h₁.actions := by
  induction run₁ with
  | start => exact ⟨[], _, .start, rfl⟩
  | @next h₁ before₁ a sys₁ run₁ allowed acted₁ ih =>
    obtain ⟨h₂, before₂, run₂, same⟩ := ih
    obtain ⟨alike, -⟩ := run₁.alike hw ignores run₂ same
    have acted := System.act_alike (b := b) hw ignores alike run₁.ready a
    rw [acted₁] at acted
    generalize acted₂ : before₂.act w₂ b c a = o at acted
    obtain @⟨_, sys₂, -⟩ := acted
    refine ⟨_, sys₂, .next run₂ (Terms.allow_free before₂ a) acted₂, ?_⟩
    simp only [History.actions, List.map_append] at same ⊢
    rw [same]
    rfl

/-- Trackers that change nothing but links, and sinks, have no influence. Whatever is done with one
tracker and sink can be done with another, and then providers are asked the same in the same order,
reviews end with the same outcomes, everybody gets the same back, and the limiter, the marks, the
line of requests and, but for links, the queue are the same. -/
theorem Run.same_but_links (hw : w₁.Alike w₂) (ignores : c.IgnoresLinks)
    (run₁ : Run w₁ b c {} (.idle limiter line) h₁ sys₁) :
    (∃ h₂ sys₂, Run w₂ b c {} (.idle limiter line) h₂ sys₂ ∧ h₂.actions = h₁.actions) ∧
    ∀ h₂ sys₂, Run w₂ b c {} (.idle limiter line) h₂ sys₂ → h₂.actions = h₁.actions →
      sys₁.site.calls = sys₂.site.calls ∧ (∀ t, sys₁.outcome? t = sys₂.outcome? t) ∧
      h₁.replies w₁ b = h₂.replies w₂ b ∧ sys₁.site.limiter = sys₂.site.limiter ∧
      sys₁.site.line = sys₂.site.line ∧ sys₁.site.queue.bare = sys₂.site.queue.bare := by
  refine ⟨run₁.matched hw ignores, fun h₂ sys₂ run₂ same => ?_⟩
  obtain ⟨alike, replies⟩ := run₁.alike hw ignores run₂ same
  have calls := congrArg Site.calls alike.site
  have limiter := congrArg Site.limiter alike.site
  have line := congrArg Site.line alike.site
  have queue := congrArg Site.queue alike.site
  exact ⟨calls, alike.outcome?, replies, limiter, line, queue⟩

end Runs

/-- The wiring of the sample, where no link and no event gets through. -/
def Sample.deaf : Wiring := { wiring with tracker := .failing, sink := .failing }

theorem Sample.deaf_alike : wiring.Alike deaf :=
  ⟨rfl, rfl, Tracker.changesOnlyLinks_queue, Tracker.changesOnlyLinks_failing⟩

/-- Where links get through, the queue ends with another link, and all else is the same. -/
theorem same_of_sample : ∃ h₁ sys₁ h₂ sys₂,
    Run Sample.wiring Sample.behaviour Sample.chain {} Sample.start h₁ sys₁ ∧
    Run Sample.deaf Sample.behaviour Sample.chain {} Sample.start h₂ sys₂ ∧
    h₂.actions = h₁.actions ∧ sys₁.site.queue ≠ sys₂.site.queue ∧
    sys₁.site.calls = sys₂.site.calls ∧ sys₁.site.queue.bare = sys₂.site.queue.bare := by
  obtain ⟨h₁, sys₁, h₂, sys₂, done₁, done₂, same, other⟩ : ∃ h₁ sys₁ h₂ sys₂,
      Sample.start.replay Sample.wiring Sample.behaviour Sample.chain Sample.refusal [] =
        some (h₁, sys₁) ∧
      Sample.start.replay Sample.deaf Sample.behaviour Sample.chain Sample.refusal [] =
        some (h₂, sys₂) ∧
      h₂.actions = h₁.actions ∧ sys₁.site.queue ≠ sys₂.site.queue :=
    ⟨_, _, _, _, rfl, rfl, rfl, by decide⟩
  have allowed := Sample.allowed {} (fun _ => trivial) (fun _ _ => trivial)
  have run₁ := Run.of_replay done₁ .start allowed
  have run₂ := Run.of_replay done₂ .start allowed
  obtain ⟨calls, -, -, -, -, queue⟩ := (Run.same_but_links Sample.deaf_alike
    Sample.plain.ignoresLinks run₁).2 h₂ sys₂ run₂ same
  exact ⟨h₁, sys₁, h₂, sys₂, run₁, run₂, same, other, calls, queue⟩

end Muster
