import Muster.Proofs.Independence
import Muster.Review.Scripted

/-!
# A fast path that is off

A trigger that is not enabled does nothing. A trigger that is enabled on a site where ready items
may not ask for reviews looks for a provider with headroom and comes to nothing as well: the line of
requests, its marks and the journal stay as they are, and no event is reported. All that is left of
it is that it has asked providers for headroom.

A provider may go by that. If none does, and no strategy of the host either, such a site goes
through the same states as a site without a listener, but for these inquiries. The proof projects
one onto the other. `view` leaves calls out of the record; if nobody goes by what it leaves out
(`Overlooks`), then whatever happens on a site, happens on the site as the view shows it, without a
listener.

**Main statements.** `Run.muted_unnoticed`: with a trigger that is off, or a fast path that is off
and inquiries that nobody goes by, everything goes as it does on a queue without a listener.
`muted_noticed`: a provider that goes by them gives a fast path away that is off.
-/

namespace Muster

variable {L : Type}

/-- The wiring without a listener. -/
def Wiring.alone (w : Wiring) : Wiring := { w with trigger := none }

namespace Site

/-- The site with the calls that a view shows. -/
def seen (view : List Call → List Call) (s : Site L) : Site L := { s with calls := view s.calls }

end Site

/-- Nobody goes by the calls that the view leaves out, which are none of a review, and the listener
brings about no other change. -/
structure Overlooks (view : List Call → List Call) (w : Wiring) (b : Behaviour) (c : Chain L) :
    Prop where
  nil : view [] = []
  concat : ∀ calls call, call.review.isSome = true → view (calls ++ [call]) = view calls ++ [call]
  headroom : ∀ calls, b.headroom (view calls) = b.headroom calls
  respond : ∀ calls, b.respond (view calls) = b.respond calls
  custom : ∀ name ordinal apply, .custom name ordinal apply ∈ c → ∀ s st,
    apply b (s.seen view) st = (apply b s st).map id (Prod.map (Site.seen view) id)
  notify : ∀ item (s : Site L), (s.notify w b item).seen view = s.seen view

variable {view : List Call → List Call} {w : Wiring} {b : Behaviour} {c : Chain L}

/-! ## Sites -/

namespace Site

theorem emit_seen (w : Wiring) (e : Event) (s : Site L) :
    (s.seen view).emit w.alone e = (s.emit w e).seen view := by
  have sink : w.alone.sink = w.sink := rfl
  simp only [emit, sink]
  cases w.sink <;> rfl

theorem tracks_seen (w : Wiring) (links : List Link) (s : Site L) :
    links.foldl (track w.alone) (s.seen view) = (links.foldl (track w) s).seen view := by
  induction links generalizing s with
  | nil => rfl
  | cons link links ih => exact ih (s.track w link)

theorem request_seen (w : Wiring) (r : ResourceClass) (source : ReviewSource)
    (item : Option WorkItemId) (s : Site L) : (s.seen view).request w.alone r source item =
      (s.request w r source item).map id (seen view) := by
  have line : (s.seen view).line = s.line := rfl
  have fastPath : w.alone.fastPath = w.fastPath := rfl
  simp only [request, line, fastPath]
  rcases s.line.request w.fastPath r source item with ⟨outcome, event, line⟩
  cases event with
  | none => rfl
  | some e => exact congrArg _ (emit_seen w e { s with line })

theorem askHeadroom_seen (o : Overlooks view w b c) (review : ReviewId) (p : Provider)
    (r : ResourceClass) (n : Count) (s : Site L) :
    (s.seen view).askHeadroom b (some review) p r n =
      (s.askHeadroom b (some review) p r n).map id (seen view) := by
  simp only [askHeadroom, seen, o.headroom, o.concat _ ⟨some review, _, _, _⟩ rfl, Prod.map, id_eq]

theorem askCapacity_seen (o : Overlooks view w b c) (review : ReviewId) (q : Request)
    (s : Site L) : (s.seen view).askCapacity b (some review) q =
      (s.askCapacity b (some review) q).map id (seen view) := by
  simp only [askCapacity, seen, o.respond, o.concat _ ⟨some review, _, _, _⟩ rfl, Prod.map, id_eq]

/-- Without a listener, an item that can run changes the queue and nothing else. -/
theorem makeBuildable_seen (o : Overlooks view w b c) (id' : WorkItemId) (s : Site L) :
    (s.seen view).makeBuildable w.alone b id' = (s.makeBuildable w b id').map id (seen view) := by
  have queue : (s.seen view).queue = s.queue := rfl
  simp only [makeBuildable, queue]
  cases s.queue.makeBuildable id' with
  | error e => rfl
  | ok x =>
    obtain ⟨queue, ready⟩ := x
    cases ready with
    | none => rfl
    | some item => exact congrArg _ (o.notify item { s with queue }).symm

theorem cancel_seen (item : WorkItemId) (s : Site L) :
    (s.seen view).cancel item = (s.cancel item).map id (seen view) := by
  have queue : (s.seen view).queue = s.queue := rfl
  simp only [cancel, queue]
  cases s.queue.cancel item <;> rfl

theorem assign_seen (item : WorkItemId) (s : Site L) :
    (s.seen view).assign item = (s.assign item).map id (seen view) := by
  have queue : (s.seen view).queue = s.queue := rfl
  simp only [assign, queue]
  cases s.queue.assign item <;> rfl

theorem online_seen (p : PlannedId) (s : Site L) :
    (s.seen view).online p = (s.online p).map id (seen view) := by
  have queue : (s.seen view).queue = s.queue := rfl
  simp only [online, queue]
  cases s.queue.online p <;> rfl

theorem assignAll_seen (items : List WorkItemId) (s : Site L) :
    assignAll items (s.seen view) = (assignAll items s).seen view := by
  induction items generalizing s with
  | nil => rfl
  | cons item items ih =>
    simp only [assignAll, assign_seen]
    rcases s.assign item with ⟨done, s₁⟩
    cases done with
    | error e => rfl
    | ok _ => exact ih s₁

theorem retires_seen [Limiter L] (ids : List PlannedId) (s : Site L) :
    ids.foldl retire (s.seen view) = (ids.foldl retire s).seen view := by
  induction ids generalizing s with
  | nil => rfl
  | cons p ids ih =>
    have retired : (s.seen view).retire p = (s.retire p).seen view := by
      simp only [retire, online_seen]
      rcases s.online p with ⟨done, s₁⟩
      cases done <;> rfl
    rw [List.foldl_cons, List.foldl_cons, retired, ih]

theorem runReadyWork_seen [Limiter L] (r : ResourceClass) (s : Site L) :
    (s.seen view).runReadyWork r = (s.runReadyWork r).seen view := by
  have queue : ∀ s : Site L, (s.seen view).queue = s.queue := fun _ => rfl
  simp only [runReadyWork, queue, retires_seen, assignAll_seen]

end Site

theorem Move.apply_seen [Limiter L] (o : Overlooks view w b c) (m : Move) (s : Site L) :
    m.apply w.alone b (s.seen view) = (m.apply w b s).seen view := by
  cases m with
  | submit item | release id => rfl
  | submitBuildable item =>
    exact congrArg Prod.snd (Site.makeBuildable_seen o item.id (s.submit item))
  | makeBuildable id => simp only [apply, Site.makeBuildable_seen o, Prod.map]
  | cancel id => simp only [apply, Site.cancel_seen, Prod.map]
  | assign id => simp only [apply, Site.assign_seen, Prod.map]
  | online id => simp only [apply, Site.online_seen, Prod.map]
  | runReadyWork r => exact Site.runReadyWork_seen r s
  | request r source item => simp only [apply, Site.request_seen, Prod.map]

theorem Move.reply_seen (o : Overlooks view w b c) (m : Move) (s : Site L) :
    m.reply w.alone b (s.seen view) = m.reply w b s := by
  cases m with
  | makeBuildable id => simp only [reply, Site.makeBuildable_seen o, Prod.map, id_eq]
  | cancel id => simp only [reply, Site.cancel_seen, Prod.map, id_eq]
  | assign id => simp only [reply, Site.assign_seen, Prod.map, id_eq]
  | online id => simp only [reply, Site.online_seen, Prod.map, id_eq]
  | request r source item => simp only [reply, Site.request_seen, Prod.map, id_eq]
  | submit _ | submitBuildable _ | release _ | runReadyWork _ => rfl

/-! ## Reviews -/

/-- How far an engine got on the site as the view shows it. -/
def Progress.seen (view : List Call → List Call) : Progress L → Progress L
  | .settled s st => .settled (s.seen view) st
  | .waiting s st pause => .waiting (s.seen view) st pause

/-- How far a chain got on the site as the view shows it. -/
def ChainProgress.seen (view : List Call → List Call) : ChainProgress L → ChainProgress L
  | .finished s st t => .finished (s.seen view) st t
  | .waiting s st cursor => .waiting (s.seen view) st cursor

section Reviews

variable [Limiter L]

namespace Engine

theorem consult_seen (o : Overlooks view w b c) (e : Engine) (r : ResourceClass) (p : Provider)
    (s : Site L) (st : ReviewState) : e.consult b r p (s.seen view) st =
      (e.consult b r p s st).map id (Prod.map (Site.seen view) id) := by
  have eligible : e.isEligible b r p (s.seen view) st =
      (e.isEligible b r p s st).map id (Site.seen view) := by
    simp only [isEligible]
    by_cases pass : (p.serves r && e.filter p r) = true
    · rw [if_pos pass, if_pos pass, Site.askHeadroom_seen o]
      rcases s.askHeadroom b (some st.review) p r (st.plannedFor p.id) with ⟨answer, s₁⟩
      rcases answer with error | yes
      · rfl
      · cases yes <;> rfl
    · rw [if_neg pass, if_neg pass]
      rfl
  simp only [consult, eligible]
  rcases e.isEligible b r p s st with ⟨yes, s₁⟩
  cases yes <;> rfl

theorem accept_seen (w : Wiring) (q : Request) (a : Answer) (s : Site L) (st : ReviewState) :
    accept w.alone q a (s.seen view) st = (accept w q a s st).map (Site.seen view) id := by
  cases a with
  | error e => exact congrArg (·, st) (Site.emit_seen w _ s)
  | ok planned =>
    simp only [accept]
    by_cases none : PlannedCapacity.totalUnits planned = 0
    · rw [if_pos none, if_pos none]
      rfl
    · rw [if_neg none, if_neg none]
      let next : Site L := { s with
        created := s.created ++ planned
        limiter := planned.foldl register s.limiter }
      have tracked : _ = Site.seen view _ := Site.tracks_seen w
        (st.recordPlanned q.resource q.provider.id planned).1 next
      refine congrArg (·, _) ?_
      rw [← Site.emit_seen, ← tracked]
      rfl

theorem visit_seen (o : Overlooks view w b c) (e : Engine) (r : ResourceClass)
    (later : List ResourceClass) (ps : Registry) (s : Site L) (st : ReviewState) :
    e.visit w.alone b r later ps (s.seen view) st = (e.visit w b r later ps s st).seen view := by
  induction ps generalizing s st with
  | nil => rfl
  | cons p rest ih =>
    simp only [visit]
    by_cases covered : st.unsatisfied r = 0
    · rw [if_pos covered, if_pos covered]
      rfl
    · rw [if_neg covered, if_neg covered, consult_seen o]
      rcases e.consult b r p s st with ⟨units, s₁, st₁⟩
      simp only [Prod.map, id_eq]
      by_cases none : units = 0
      · rw [if_pos none, if_pos none]
        exact ih s₁ st₁
      · rw [if_neg none, if_neg none, Site.askCapacity_seen o]
        rcases s₁.askCapacity b (some st₁.review) ⟨p, r, units⟩ with ⟨answer, s₂⟩
        cases answer with
        | none => rfl
        | some a =>
          simp only [Prod.map, id_eq, accept_seen]
          exact ih _ _

theorem visitClasses_seen (o : Overlooks view w b c) (e : Engine) (rs : List ResourceClass)
    (s : Site L) (st : ReviewState) :
    e.visitClasses w.alone b rs (s.seen view) st = (e.visitClasses w b rs s st).seen view := by
  induction rs generalizing s st with
  | nil => rfl
  | cons r later ih =>
    simp only [visitClasses, visit_seen o]
    cases e.visit w b r later e.providers s st with
    | settled s₁ st₁ => exact ih s₁ st₁
    | waiting s₁ st₁ pause => rfl

theorem start_seen (o : Overlooks view w b c) (e : Engine) (s : Site L) (st : ReviewState) :
    e.start w.alone b (s.seen view) st = (e.start w b s st).seen view := by
  simp only [start]
  split
  · exact visitClasses_seen o e _ s st
  · rfl

theorem resume_seen (o : Overlooks view w b c) (e : Engine) (pause : Pause) (a : Answer)
    (s : Site L) (st : ReviewState) :
    e.resume w.alone b pause a (s.seen view) st = (e.resume w b pause a s st).seen view := by
  simp only [resume, accept_seen, Prod.map, id_eq, visit_seen o]
  cases e.visit w b pause.request.resource pause.classesLeft pause.providersLeft
      (accept w pause.request a s st).1 (accept w pause.request a s st).2 with
  | settled s₁ st₁ => exact visitClasses_seen o e _ s₁ st₁
  | waiting s₁ st₁ pause => rfl

end Engine

theorem Chain.run_seen (o : Overlooks view w b c) (rest : Chain L) (hc : ∀ x ∈ rest, x ∈ c)
    (t : Tally) (s : Site L) (st : ReviewState) :
    Chain.run w.alone b rest t (s.seen view) st = (Chain.run w b rest t s st).seen view := by
  induction rest generalizing t s st with
  | nil => rfl
  | cons strategy rest ih =>
    have hrest : ∀ x ∈ rest, x ∈ c := fun x hx => hc x (List.mem_cons_of_mem _ hx)
    cases strategy with
    | fallback => rfl
    | engine e =>
      simp only [Chain.run, Engine.start_seen o]
      cases e.start w b s st with
      | settled s₁ st₁ => exact ih hrest _ s₁ st₁
      | waiting s₁ st₁ pause => rfl
    | custom name ordinal apply =>
      simp only [Chain.run, o.custom name ordinal apply (hc _ List.mem_cons_self) s st]
      rcases apply b s st with ⟨result, s₁, st₁⟩
      rcases result with error | decision
      · simp only [Prod.map, id_eq, Site.emit_seen]
        exact ih hrest _ _ st₁
      · cases decision with
        | proceed => exact ih hrest _ s₁ st₁
        | complete => rfl

theorem Cursor.resume_seen (o : Overlooks view w b c) (cursor : Cursor L)
    (hc : ∀ x ∈ cursor.rest, x ∈ c) (a : Answer) (s : Site L) (st : ReviewState) :
    cursor.resume w.alone b a (s.seen view) st = (cursor.resume w b a s st).seen view := by
  simp only [Cursor.resume, Engine.resume_seen o]
  cases cursor.engine.resume w b cursor.pause a s st with
  | settled s₁ st₁ => exact Chain.run_seen o _ hc _ s₁ st₁
  | waiting s₁ st₁ pause => rfl

namespace Cycle

omit [Limiter L] in
theorem settle_seen (w : Wiring) (r : ResourceClass) (g : ChainProgress L) :
    settle w.alone r (g.seen view) = (settle w r g).map (Site.seen view) id := by
  cases g with
  | finished s st t =>
    exact congrArg (·, _) (Site.emit_seen w _ { s with queue := s.queue.recordPending st.planned })
  | waiting s st cursor => rfl

theorem begin_seen (o : Overlooks view w b c) (r : ResourceClass) (s : Site L) :
    begin w.alone b c r (s.seen view) = (begin w b c r s).map (Site.seen view) id := by
  unfold begin
  rw [← settle_seen, ← Chain.run_seen o c (fun _ hx => hx)]
  rfl

theorem resume_seen (o : Overlooks view w b c) (r : ResourceClass) (st : ReviewState)
    (cursor : Cursor L) (hc : ∀ x ∈ cursor.rest, x ∈ c) (a : Answer) (s : Site L) :
    resume w.alone b r st cursor a (s.seen view) =
      (resume w b r st cursor a s).map (Site.seen view) id := by
  unfold resume
  rw [← settle_seen, ← Cursor.resume_seen o cursor hc]

end Cycle

end Reviews

/-! ## Systems -/

namespace System

/-- The system with the calls that a view shows. -/
def seen (view : List Call → List Call) (sys : System L) : System L :=
  { sys with site := sys.site.seen view }

theorem callEach_seen (rs : List ResourceClass) (sys : System L) :
    (sys.seen view).callEach rs = (sys.callEach rs).seen view := by
  induction rs generalizing sys with
  | nil => rfl
  | cons r rs ih => exact ih (sys.spawn r).2

theorem afterReview_seen (sys : System L) (t : TaskId) (k : LockId) (x : Site L × Cycle L) :
    (sys.seen view).afterReview t k (x.map (Site.seen view) id) =
      (sys.afterReview t k x).seen view := by
  obtain ⟨s, cycle⟩ := x
  cases cycle <;> rfl

variable [Limiter L]

theorem step_seen (o : Overlooks view w b c) (sys : System L) (t : TaskId) :
    (sys.seen view).step w.alone b c t = (sys.step w b c t).map (seen view) := by
  have tasks : (sys.seen view).tasks = sys.tasks := rfl
  simp only [step, tasks]
  cases sys.tasks.find? t with
  | none => rfl
  | some task =>
    obtain ⟨r, φ⟩ := task
    cases φ with
    | inLine k =>
      have locks : (sys.seen view).locks = sys.locks := rfl
      simp only [locks]
      split <;> rfl
    | entered k =>
      have site : (sys.seen view).site = sys.site.seen view := rfl
      simp only [site, Cycle.begin_seen o, afterReview_seen]
      rfl
    | _ => rfl

theorem answer_seen (o : Overlooks view w b c) (sys : System L)
    (ready : ∀ t r φ, sys.tasks.find? t = some ⟨r, φ⟩ → φ.Ready c) (t : TaskId) (a : Answer) :
    (sys.seen view).answer w.alone b t a = (sys.answer w b t a).map (seen view) := by
  have tasks : (sys.seen view).tasks = sys.tasks := rfl
  simp only [answer, tasks]
  cases found : sys.tasks.find? t with
  | none => rfl
  | some task =>
    obtain ⟨r, φ⟩ := task
    cases φ with
    | waiting k st cursor =>
      have site : (sys.seen view).site = sys.site.seen view := rfl
      have rest := (ready t r _ found).1.rest
      simp only [site, Cycle.resume_seen o r st cursor rest, afterReview_seen]
      rfl
    | _ => rfl

/-- What happens to a system, happens to it without a listener and as the view shows it. -/
theorem act_seen (o : Overlooks view w b c) (sys : System L)
    (ready : ∀ t r φ, sys.tasks.find? t = some ⟨r, φ⟩ → φ.Ready c) (a : Action) :
    (sys.seen view).act w.alone b c a = (sys.act w b c a).map (seen view) := by
  cases a with
  | move m => exact congrArg (fun s => some { sys with site := s }) (m.apply_seen o sys.site)
  | call r => rfl
  | callAll => exact congrArg some (callEach_seen _ sys)
  | receive =>
    have line : (sys.seen view).site.line = sys.site.line := rfl
    simp only [act, line]
    cases sys.site.line.receive <;> rfl
  | step t => exact step_seen o sys t
  | answer t a => exact answer_seen o sys ready t a

end System

/-! ## Runs -/

/-- The history of the system as the view shows it. -/
def History.seen (view : List Call → List Call) (h : History L) : History L :=
  h.map (Prod.map (System.seen view) id)

theorem History.actions_seen (h : History L) : (h.seen view).actions = h.actions := by
  simp only [seen, actions, List.map_map]
  rfl

theorem History.replies_seen (o : Overlooks view w b c) (h : History L) :
    (h.seen view).replies w.alone b = h.replies w b := by
  simp only [seen, replies, List.map_map]
  refine List.map_congr_left fun x _ => ?_
  obtain ⟨sys, a⟩ := x
  cases a with
  | move m => exact m.reply_seen o sys.site
  | _ => rfl

section Runs

variable [Limiter L] {limiter : L} {line : RequestLine} {h : History L} {sys : System L}

theorem Run.seen (o : Overlooks view w b c) (run : Run w b c {} (.idle limiter line) h sys) :
    Run w.alone b c {} (.idle limiter line) (h.seen view) (sys.seen view) := by
  induction run with
  | start =>
    have idle : (System.idle limiter line).seen view = .idle limiter line := by
      simp only [System.seen, System.idle, Site.seen, o.nil]
    rw [idle]
    exact .start
  | @next h before a sys run allowed acted ih =>
    have next := System.act_seen o before run.ready a
    rw [acted] at next
    rw [History.seen, List.map_append]
    exact .next ih (Terms.allow_free _ a) next

/-- The actions of a run determine it. -/
theorem Run.eq_of_actions {terms : Terms} {start : System L} {h₁ h₂ : History L}
    {sys₁ sys₂ : System L} (run₁ : Run w b c terms start h₁ sys₁)
    (run₂ : Run w b c terms start h₂ sys₂) (same : h₂.actions = h₁.actions) :
    h₂ = h₁ ∧ sys₂ = sys₁ := by
  induction run₁ generalizing h₂ sys₂ with
  | start =>
    obtain rfl := List.map_eq_nil_iff.1 same
    generalize e : ([] : History L) = h at run₂
    cases run₂ with
    | start => exact ⟨rfl, rfl⟩
    | next _ _ _ => cases List.append_ne_nil_of_right_ne_nil _ (List.cons_ne_nil _ _) e.symm
  | @next h₁ before₁ a sys₁ run₁ allowed acted₁ ih =>
    cases run₂ with
    | start =>
      cases List.append_ne_nil_of_right_ne_nil _ (List.cons_ne_nil _ _)
        (List.map_eq_nil_iff.1 same.symm)
    | next run₂ _ acted₂ =>
      simp only [History.actions, List.map_append, List.map_cons, List.map_nil] at same
      obtain ⟨before, last⟩ := List.append_inj' same rfl
      obtain ⟨rfl, rfl⟩ := ih run₂ before
      obtain rfl := List.head_eq_of_cons_eq last
      exact ⟨rfl, Option.some.inj (acted₂.symm.trans acted₁)⟩

end Runs

/-! ## What is left of a trigger that is off -/

/-- The call asks for headroom, and not in the name of a review. -/
def Call.isInquiry : Call → Bool
  | ⟨none, _, _, .headroom _ _⟩ => true
  | _ => false

/-- The calls but for the inquiries of triggers. -/
def Call.inEarnest (calls : List Call) : List Call := calls.filter fun call => !call.isInquiry

/-- A check for headroom is no more than a look: what providers say later does not depend on what
triggers have inquired. -/
def Behaviour.IgnoresInquiries (b : Behaviour) : Prop :=
  ∀ calls, b.headroom (Call.inEarnest calls) = b.headroom calls ∧
    b.respond (Call.inEarnest calls) = b.respond calls

/-- Strategies of the host do not go by the inquiries of triggers either. -/
def Chain.IgnoresInquiries (c : Chain L) (b : Behaviour) : Prop :=
  ∀ name ordinal apply, .custom name ordinal apply ∈ c → ∀ s st,
    apply b (s.seen Call.inEarnest) st =
      (apply b s st).map id (Prod.map (Site.seen Call.inEarnest) id)

theorem Chain.Plain.ignoresInquiries (h : c.Plain) (b : Behaviour) : c.IgnoresInquiries b :=
  fun _ _ _ mem => absurd mem (h _ _ _)

/-- The listener of the queue, if it has one, is off. -/
def Wiring.Deaf (w : Wiring) : Prop := ∀ t, w.trigger = some t → t.enabled = false

/-- The trigger is off, or ready items may not ask for reviews. -/
def Wiring.Muted (w : Wiring) : Prop := w.Deaf ∨ w.fastPath = false

namespace Site

/-- Ready items that may not ask for reviews leave no trace in the line or the journal. -/
theorem request_off (off : w.fastPath = false) (r : ResourceClass) (item : Option WorkItemId)
    (s : Site L) : s.request w r .fastPath item = (.disabled, s) := by
  simp [request, RequestLine.request, off]

/-- A trigger that may not ask for reviews inquires at most. -/
theorem announceTo_off (off : w.fastPath = false) (filter : Filter) (item : WorkItem)
    (ps : Registry) (s : Site L) : ∃ new, (s.announceTo w b filter item ps).2 =
      { s with calls := s.calls ++ new } ∧ ∀ call ∈ new, call.isInquiry = true := by
  induction ps generalizing s with
  | nil => exact ⟨[], by rw [List.append_nil]; rfl, nofun⟩
  | cons p rest ih =>
    simp only [announceTo]
    by_cases pass : (p.serves item.resource && filter p item.resource) = true
    · rw [if_pos pass]
      obtain ⟨call, inquiry, asked⟩ : ∃ call : Call, call.isInquiry = true ∧
          (s.askHeadroom b none p item.resource 0).2 = { s with calls := s.calls ++ [call] } :=
        ⟨_, rfl, rfl⟩
      -- Whatever the answer is, it is the last trace of this provider.
      have further : ∃ new, (announceTo w b filter item rest
          (s.askHeadroom b none p item.resource 0).2).2 = { s with calls := s.calls ++ new } ∧
          ∀ call ∈ new, call.isInquiry = true := by
        obtain ⟨new, same, inquiries⟩ := ih (s.askHeadroom b none p item.resource 0).2
        refine ⟨call :: new, ?_, List.forall_mem_cons.2 ⟨inquiry, inquiries⟩⟩
        rw [same, asked, List.append_assoc]
        rfl
      revert asked further
      rcases s.askHeadroom b none p item.resource 0 with ⟨answer, s₁⟩
      intro asked further
      rcases answer with error | yes
      · exact further
      · cases yes with
        | false => exact further
        | true =>
          simp only [request_off off]
          exact ⟨[call], asked, List.forall_mem_singleton.2 inquiry⟩
    · rw [if_neg pass]
      exact ih s

theorem notify_deaf (deaf : w.Deaf) (item : WorkItem) (s : Site L) : s.notify w b item = s := by
  simp only [notify]
  cases trigger : w.trigger with
  | none => rfl
  | some t => simp only [announce, deaf t trigger, Bool.false_eq_true, if_false]

/-- All that a ready item may bring about is inquiries. -/
theorem notify_muted (muted : w.Muted) (item : WorkItem) (s : Site L) :
    ∃ new, s.notify w b item = { s with calls := s.calls ++ new } ∧
      ∀ call ∈ new, call.isInquiry = true := by
  have nothing : ∃ new, s = { s with calls := s.calls ++ new } ∧
      ∀ call ∈ new, call.isInquiry = true := ⟨[], by rw [List.append_nil], nofun⟩
  rcases muted with deaf | off
  · rw [notify_deaf deaf]
    exact nothing
  · simp only [notify]
    cases w.trigger with
    | none => exact nothing
    | some t =>
      simp only [announce]
      by_cases on : t.enabled = true
      · rw [if_pos on]
        exact announceTo_off off t.filter item t.providers s
      · rw [if_neg on]
        exact nothing

end Site

theorem Call.inEarnest_append (calls new : List Call) :
    inEarnest (calls ++ new) = inEarnest calls ++ inEarnest new := List.filter_append ..

theorem Call.inEarnest_inquiries {new : List Call} (h : ∀ call ∈ new, call.isInquiry = true) :
    inEarnest new = [] := by
  refine List.filter_eq_nil_iff.2 fun call mem => ?_
  rw [h call mem]
  exact Bool.false_ne_true

theorem Call.inEarnest_idem (calls : List Call) :
    inEarnest (inEarnest calls) = inEarnest calls := by
  simp only [inEarnest, List.filter_filter, Bool.and_self]

/-- With a trigger that is off nothing has to be left out. -/
theorem Wiring.Deaf.overlooks (deaf : w.Deaf) : Overlooks id w b c where
  nil := rfl
  concat _ _ _ := rfl
  headroom _ := rfl
  respond _ := rfl
  custom _ _ _ _ _ _ := rfl
  notify item s := by rw [Site.notify_deaf deaf]

/-- With a fast path that is off, the inquiries of the trigger have to be. -/
theorem Wiring.Muted.overlooks (muted : w.Muted) (providers : b.IgnoresInquiries)
    (strategies : c.IgnoresInquiries b) : Overlooks Call.inEarnest w b c where
  nil := rfl
  concat := by
    intro calls call review
    obtain ⟨review', p, r, question⟩ := call
    obtain ⟨id', rfl⟩ := Option.isSome_iff_exists.1 review
    rw [Call.inEarnest_append]
    rfl
  headroom calls := (providers calls).1
  respond calls := (providers calls).2
  custom := strategies
  notify := by
    intro item s
    obtain ⟨new, same, inquiries⟩ := Site.notify_muted (b := b) muted item s
    simp only [same, Site.seen, Call.inEarnest_append, Call.inEarnest_inquiries inquiries,
      List.append_nil]

section Main

variable [Limiter L] {limiter : L} {line : RequestLine} {h : History L} {sys : System L}

/-- With a trigger or a fast path that is off, an item that becomes ready makes the trigger inquire
at most and leaves the line, the marks and the journal alone.

If the trigger is off, or else neither providers nor strategies of the host go by its inquiries,
then whatever is done on such a site can be done on a queue without a listener, and then reviews end
with the same outcomes, providers are asked the same but for those inquiries, everybody gets the
same back, and the limiter, the queue, the line, its marks and the journal are the same. -/
theorem Run.muted_unnoticed (muted : w.Muted)
    (run : Run w b c {} (.idle limiter line) h sys) :
    (∀ item (s : Site L), ∃ new, s.notify w b item = { s with calls := s.calls ++ new } ∧
      ∀ call ∈ new, call.isInquiry = true) ∧
    (w.Deaf ∨ b.IgnoresInquiries ∧ c.IgnoresInquiries b →
      (∃ h' sys', Run w.alone b c {} (.idle limiter line) h' sys' ∧ h'.actions = h.actions) ∧
      ∀ h' sys', Run w.alone b c {} (.idle limiter line) h' sys' → h'.actions = h.actions →
        (∀ t, sys'.outcome? t = sys.outcome? t) ∧
        Call.inEarnest sys'.site.calls = Call.inEarnest sys.site.calls ∧
        h'.replies w.alone b = h.replies w b ∧ sys'.site.limiter = sys.site.limiter ∧
        sys'.site.queue = sys.site.queue ∧ sys'.site.line = sys.site.line ∧
        sys'.site.journal = sys.site.journal) := by
  refine ⟨Site.notify_muted muted, fun unheeded => ?_⟩
  obtain ⟨view, overlooks, earnest⟩ : ∃ view, Overlooks view w b c ∧
      ∀ calls, Call.inEarnest (view calls) = Call.inEarnest calls := by
    rcases unheeded with deaf | ⟨providers, strategies⟩
    · exact ⟨id, deaf.overlooks, fun _ => rfl⟩
    · exact ⟨Call.inEarnest, muted.overlooks providers strategies, Call.inEarnest_idem⟩
  have projected := run.seen overlooks
  refine ⟨⟨_, _, projected, h.actions_seen⟩, fun h' sys' run' same => ?_⟩
  obtain ⟨rfl, rfl⟩ := projected.eq_of_actions run' (same.trans h.actions_seen.symm)
  exact ⟨fun _ => rfl, earnest _, h.replies_seen overlooks, rfl, rfl, rfl, rfl⟩

end Main

/-- The wiring of the sample, where ready items may not ask for reviews. -/
def Sample.hushed : Wiring := { wiring with fastPath := false }

theorem Sample.hushed_muted : hushed.Muted := .inr rfl

theorem Sample.unheeded : behaviour.IgnoresInquiries ∧ chain.IgnoresInquiries behaviour :=
  ⟨fun _ => ⟨rfl, rfl⟩, plain.ignoresInquiries behaviour⟩

/-- Two items become ready, and the timer has their class reviewed. -/
def Sample.periodic : List Action :=
  [.move (.submitBuildable (item 1)), .move (.submitBuildable (item 2)), .callAll, .step 0, .step 0,
    .step 0]

/-- The trigger inquires twice and to no avail; the review asks as it does without a listener. -/
theorem muted_of_sample : ∃ h sys h' sys',
    Run Sample.hushed Sample.behaviour Sample.chain {} Sample.start h sys ∧
    Run Sample.hushed.alone Sample.behaviour Sample.chain {} Sample.start h' sys' ∧
    h'.actions = h.actions ∧ sys.site.calls.length = 6 ∧ sys'.site.calls.length = 4 ∧
    Call.inEarnest sys'.site.calls = Call.inEarnest sys.site.calls ∧
    sys'.site.queue = sys.site.queue := by
  obtain ⟨h, sys, h', sys', done, done', same, six, four⟩ : ∃ h sys h' sys',
      Sample.start.replay Sample.hushed Sample.behaviour Sample.chain Sample.periodic [] =
        some (h, sys) ∧
      Sample.start.replay Sample.hushed.alone Sample.behaviour Sample.chain Sample.periodic [] =
        some (h', sys') ∧
      h'.actions = h.actions ∧ sys.site.calls.length = 6 ∧ sys'.site.calls.length = 4 :=
    ⟨_, _, _, _, rfl, rfl, rfl, rfl, rfl⟩
  have run := Run.of_replay done .start fun a _ sys => Terms.allow_free sys a
  have run' := Run.of_replay done' .start fun a _ sys => Terms.allow_free sys a
  obtain ⟨-, calls, -, -, queue, -⟩ :=
    ((Run.muted_unnoticed Sample.hushed_muted run).2 (.inr Sample.unheeded)).2 h' sys' run' same
  exact ⟨h, sys, h', sys', run, run', same, six, four, calls, queue⟩

/-! ## A provider that goes by inquiries -/

/-- Providers as in the sample, with headroom for the first that asks only. -/
def Sample.firstCome : Behaviour where
  headroom calls _ _ _ := .ok calls.isEmpty
  respond := behaviour.respond

/-- An item becomes ready, and the timer has its class reviewed. -/
def Sample.solitary : List Action :=
  [.move (.submitBuildable (item 1)), .callAll, .step 0, .step 0, .step 0, .step 0, .step 0]

/-- The trigger asks first, and in vain, so the review requests nothing. Without a listener the
review asks first and gets its unit. -/
theorem muted_noticed : Sample.hushed.Muted ∧ ∃ h sys h' sys',
    Run Sample.hushed Sample.firstCome Sample.chain {} Sample.start h sys ∧
    Run Sample.hushed.alone Sample.firstCome Sample.chain {} Sample.start h' sys' ∧
    h'.actions = h.actions ∧
    (sys.outcome? 0).map (·.unitsRequested) = some 0 ∧
    (sys'.outcome? 0).map (·.unitsRequested) = some 1 ∧
    SimulatedProvider.requests sys.site.calls (.ofNat 1) = [] ∧
    SimulatedProvider.requests sys'.site.calls (.ofNat 1) = [(.unlabeled, 1)] ∧
    (sys.site.queue.snapshot .unlabeled).inFlight = 0 ∧
    (sys'.site.queue.snapshot .unlabeled).inFlight = 1 := by
  obtain ⟨h, sys, h', sys', done, done', differ⟩ : ∃ h sys h' sys',
      Sample.start.replay Sample.hushed Sample.firstCome Sample.chain Sample.solitary [] =
        some (h, sys) ∧
      Sample.start.replay Sample.hushed.alone Sample.firstCome Sample.chain Sample.solitary [] =
        some (h', sys') ∧
      h'.actions = h.actions ∧
      (sys.outcome? 0).map (·.unitsRequested) = some 0 ∧
      (sys'.outcome? 0).map (·.unitsRequested) = some 1 ∧
      SimulatedProvider.requests sys.site.calls (.ofNat 1) = [] ∧
      SimulatedProvider.requests sys'.site.calls (.ofNat 1) = [(.unlabeled, 1)] ∧
      (sys.site.queue.snapshot .unlabeled).inFlight = 0 ∧
      (sys'.site.queue.snapshot .unlabeled).inFlight = 1 :=
    ⟨_, _, _, _, rfl, rfl, rfl, rfl, rfl, rfl, rfl, rfl, rfl⟩
  have run := Run.of_replay done .start fun a _ sys => Terms.allow_free sys a
  have run' := Run.of_replay done' .start fun a _ sys => Terms.allow_free sys a
  exact ⟨.inr rfl, h, sys, h', sys', run, run', differ⟩

end Muster
