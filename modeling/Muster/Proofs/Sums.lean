import Muster.Proofs.Ceilings
import Muster.Proofs.Conservation

/-!
# Sums that have to fit

Most sums of counts stop at the largest one. Five do not: the units that come online are added to
the idle ones, the units in flight are added up for a class and for each provider, a review adds
what a provider plans to what it knows of the provider, and the limiter adds up what is registered
for a slot. Here it is said, for whatever can happen to a system, which of these sums it takes and
that they fit; the definitions follow those of the reviews, engine by engine and provider by
provider.

**Main statements.** `Guards.begin_fits` and `Guards.resume_fits`: the sums of a whole review fit if
a property that every stride keeps makes each of them fit.
-/

namespace Muster

variable {L : Type}

/-! ## Sums over a site -/

/-- The sum over the registrations for each slot fits. -/
def StaticLimiter.Fits (l : StaticLimiter) : Prop := ∀ slot, l.held slot < 4294967296

theorem StaticLimiter.Within.fits {l : StaticLimiter} (h : l.Within) : l.Fits :=
  fun slot => Nat.lt_of_le_of_lt (h slot) (l.ceiling_lt slot)

/-- The sums that anybody may take on the site fit. -/
structure Site.Fits (s : Site StaticLimiter) : Prop where
  queue : s.queue.Fits
  limiter : s.limiter.Fits

/-! ## Sums that others take -/

section Moves

variable [Limiter L]

/-- The sums fit by which capacity comes online, one after the other. -/
def Site.RetiresFit : List PlannedId → Site L → Prop
  | [], _ => True
  | id :: rest, s => Queue.Op.Fits s.queue (.online id) ∧ RetiresFit rest (s.retire id)

/-- The sums that a move takes fit. Before items run, a snapshot is taken of the class. -/
def Move.SumsFit (s : Site L) : Move → Prop
  | online id => Queue.Op.Fits s.queue (.online id)
  | runReadyWork r => s.RetiresFit (s.queue.inFlightIds r) ∧
      Count.exactSum ((((s.queue.inFlightIds r).foldl Site.retire s).queue.inFlightOf r).map
        (·.units)) < 4294967296
  | _ => True

/-- What comes online was counted as capacity before. -/
theorem Queue.fits_online {q : Queue} (fits : ∀ r, q.capacity r < 4294967296) (id : PlannedId) :
    Op.Fits q (.online id) := by
  intro p flying
  have known := fits p.resource
  rw [capacity_eq, Table.sumOf_of_find? flying, PlannedCapacity.unitsIf,
    if_pos (beq_self_eq_true _)] at known
  omega

theorem Site.retires_fit (ids : List PlannedId) {s : Site L}
    (fits : ∀ r, s.queue.capacity r < 4294967296) : s.RetiresFit ids := by
  induction ids generalizing s with
  | nil => trivial
  | cons id ids ih =>
    exact ⟨Queue.fits_online fits id, ih fun r =>
      Nat.lt_of_le_of_lt ((retire_changes s id).capacity_le r) (fits r)⟩

theorem Site.retires_capacity_le (ids : List PlannedId) (s : Site L) (r : ResourceClass) :
    (ids.foldl retire s).queue.capacity r ≤ s.queue.capacity r := by
  induction ids generalizing s with
  | nil => exact Nat.le_refl _
  | cons id ids ih => exact Nat.le_trans (ih _) ((retire_changes s id).capacity_le r)

/-- What others add up fits if the capacity of each class does. -/
theorem Move.sumsFit (m : Move) {s : Site L} (fits : ∀ r, s.queue.capacity r < 4294967296) :
    m.SumsFit s := by
  cases m with
  | online id => exact Queue.fits_online fits id
  | runReadyWork r =>
    have capacity := Site.retires_capacity_le (s.queue.inFlightIds r) s r
    refine ⟨Site.retires_fit _ fits, Nat.lt_of_le_of_lt ?_ (fits r)⟩
    exact Nat.le_trans (Nat.le_add_left _ _) capacity
  | _ => trivial

end Moves

/-! ## Sums that reviews take -/

namespace Engine

/-- The sum fits that a look-up of a limit takes. A slot that was looked up before is not looked up
again. -/
def ConsultFits (e : Engine) (b : Behaviour) (r : ResourceClass) (p : Provider)
    (s : Site StaticLimiter) (st : ReviewState) : Prop :=
  match e.isEligible b r p s st with
  | (false, _) => True
  | (true, s) => st.budget.reads ⟨p.id, r⟩ = true → s.limiter.held ⟨p.id, r⟩ < 4294967296

/-- The sum fits by which an answer is added to what the review knows of the provider. -/
def AcceptFits (q : Request) (answer : Answer) (st : ReviewState) : Prop :=
  match answer with
  | .error _ => True
  | .ok planned =>
    let units := PlannedCapacity.totalUnits planned
    units ≠ 0 → (st.plannedFor q.provider.id).toNat + units.toNat < 4294967296

/-- The sums of a visit to providers fit. -/
def VisitFits (e : Engine) (w : Wiring) (b : Behaviour) (r : ResourceClass) :
    Registry → Site StaticLimiter → ReviewState → Prop
  | [], _, _ => True
  | p :: rest, s, st =>
    if st.unsatisfied r = 0 then True
    else e.ConsultFits b r p s st ∧
      match e.consult b r p s st with
      | (units, s, st) =>
        if units = 0 then VisitFits e w b r rest s st
        else match s.askCapacity b (some st.review) ⟨p, r, units⟩ with
          | (none, _) => True
          | (some answer, s) => AcceptFits ⟨p, r, units⟩ answer st ∧
            match accept w ⟨p, r, units⟩ answer s st with
            | (s, st) => VisitFits e w b r rest s st

/-- The sums fit by which classes are planned one after the other. -/
def VisitClassesFit (e : Engine) (w : Wiring) (b : Behaviour) :
    List ResourceClass → Site StaticLimiter → ReviewState → Prop
  | [], _, _ => True
  | r :: later, s, st => e.VisitFits w b r e.providers s st ∧
    match e.visit w b r later e.providers s st with
    | .settled s st => VisitClassesFit e w b later s st
    | .waiting _ _ _ => True

/-- The sums that the engine takes at once fit. -/
def StartFits (e : Engine) (w : Wiring) (b : Behaviour) (s : Site StaticLimiter)
    (st : ReviewState) : Prop :=
  if e.enabled then e.VisitClassesFit w b st.classes.keys s st else True

/-- The sums that the engine takes after an answer fit. -/
def ResumeFits (e : Engine) (w : Wiring) (b : Behaviour) (pause : Pause) (answer : Answer)
    (s : Site StaticLimiter) (st : ReviewState) : Prop :=
  AcceptFits pause.request answer st ∧
  match accept w pause.request answer s st with
  | (s, st) =>
    let r := pause.request.resource
    e.VisitFits w b r pause.providersLeft s st ∧
    match e.visit w b r pause.classesLeft pause.providersLeft s st with
    | .settled s st => e.VisitClassesFit w b pause.classesLeft s st
    | .waiting _ _ _ => True

end Engine

/-- The sums that the engines of a chain take fit. -/
def Chain.RunFits (w : Wiring) (b : Behaviour) :
    Chain StaticLimiter → Site StaticLimiter → ReviewState → Prop
  | [], _, _ => True
  | .fallback :: _, _, _ => True
  | .engine e :: rest, s, st => e.StartFits w b s st ∧
    match e.start w b s st with
    | .settled s st => RunFits w b rest s st
    | .waiting _ _ _ => True
  | .custom name _ apply :: rest, s, st =>
    match apply b s st with
    | (.ok .proceed, s, st) => RunFits w b rest s st
    | (.ok .complete, _, _) => True
    | (.error e, s, st) => RunFits w b rest (s.emit w (.strategyFailed st.review name e.message)) st

/-- The sums that a chain takes after an answer fit. -/
def Cursor.ResumeFits (w : Wiring) (b : Behaviour) (cursor : Cursor StaticLimiter)
    (answer : Answer) (s : Site StaticLimiter) (st : ReviewState) : Prop :=
  cursor.engine.ResumeFits w b cursor.pause answer s st ∧
  match cursor.engine.resume w b cursor.pause answer s st with
  | .settled s st => cursor.rest.RunFits w b s st
  | .waiting _ _ _ => True

/-- The sums that a review takes at once fit, those of its snapshot among them. -/
def Cycle.BeginFits (w : Wiring) (b : Behaviour) (c : Chain StaticLimiter) (r : ResourceClass)
    (s : Site StaticLimiter) : Prop :=
  s.queue.Fits ∧ c.RunFits w b (opened r s) (captured r s)

/-- The sums fit that an action takes. -/
def System.SumsFit (w : Wiring) (b : Behaviour) (c : Chain StaticLimiter)
    (sys : System StaticLimiter) : Action → Prop
  | .move m => m.SumsFit sys.site
  | .step t =>
    match sys.tasks.find? t with
    | some ⟨r, .entered _⟩ => Cycle.BeginFits w b c r sys.site
    | _ => True
  | .answer t a =>
    match sys.tasks.find? t with
    | some ⟨_, .waiting _ st cursor⟩ => cursor.ResumeFits w b a sys.site st
    | _ => True
  | _ => True

/-! ## What makes them fit -/

/-- A property of a site and what a review knows that every stride keeps, and that makes each sum of
the review fit. -/
structure Guards (w : Wiring) (b : Behaviour) (c : Chain StaticLimiter)
    (P : Site StaticLimiter × ReviewState → Prop) : Prop where
  kept : ∀ x y, Stride w b c Answer.Proper x y → P x → P y
  held : ∀ s st, P (s, st) → s.limiter.Fits
  planned : ∀ s st q a, P (s, st) → st.Warrants q → Answer.Proper q a → Engine.AcceptFits q a st

namespace Guards

variable {w : Wiring} {b : Behaviour} {c : Chain StaticLimiter}
  {P : Site StaticLimiter × ReviewState → Prop} {e : Engine} {p : Provider} {r : ResourceClass}
  {s : Site StaticLimiter} {st : ReviewState}

theorem keeps (g : Guards w b c P) {x y : Site StaticLimiter × ReviewState} (h : P x)
    (strides : Strides w b c Answer.Proper x y) : P y :=
  strides.keeps g.kept h

theorem consult_fits (g : Guards w b c P) (he : .engine e ∈ c) (hp : p ∈ e.providers)
    (h : P (s, st)) : e.ConsultFits b r p s st := by
  simp only [Engine.ConsultFits]
  split
  · trivial
  · rename_i s₁ said
    have asked : Strides w b c Answer.Proper (s, st) (s₁, st) :=
      (Engine.isEligible_follows he hp said).1
    exact fun _ => g.held _ _ (g.keeps h asked) _

theorem visit_fits (g : Guards w b c P) (hb : b.Gives Answer.Proper) (he : .engine e ∈ c)
    (ps : Registry) (hp : ∀ p ∈ ps, p ∈ e.providers) (s : Site StaticLimiter) (st : ReviewState)
    (h : P (s, st)) : e.VisitFits w b r ps s st := by
  induction ps generalizing s st with
  | nil => trivial
  | cons p rest ih =>
    have hrest : ∀ q ∈ rest, q ∈ e.providers := fun q hq => hp q (List.mem_cons_of_mem _ hq)
    simp only [Engine.VisitFits]
    by_cases hr : st.unsatisfied r = 0
    · rw [if_pos hr]
      trivial
    · rw [if_neg hr]
      refine ⟨g.consult_fits he (hp p List.mem_cons_self) h, ?_⟩
      rcases hc : e.consult b r p s st with ⟨units, s₁, st₁⟩
      obtain ⟨consulted, prompts⟩ : Strides w b c Answer.Proper (s, st) (s₁, st₁) ∧ _ :=
        Engine.consult_follows he (hp p List.mem_cons_self) hr hc
      by_cases positive : units = 0
      · simp only [if_pos positive]
        exact ih hrest s₁ st₁ (g.keeps h consulted)
      · simp only [if_neg positive]
        obtain ⟨admits, prompt⟩ := prompts positive
        have asked : Strides w b c Answer.Proper (s, st) _ :=
          consulted.tail (.request he admits prompt)
        split
        · trivial
        · rename_i answer s₂ said
          have given : Answer.Proper ⟨p, r, units⟩ answer := hb _ _ _ _ (congrArg Prod.fst said)
          rw [said] at asked
          have now := g.keeps h asked
          exact ⟨g.planned _ _ _ _ now prompt.toWarrants given,
            ih hrest _ _ (g.kept _ _ (.accept prompt.toWarrants given) now)⟩

theorem visitClasses_fit (g : Guards w b c P) (hb : b.Gives Answer.Proper) (he : .engine e ∈ c)
    (rs : List ResourceClass) (s : Site StaticLimiter) (st : ReviewState) (h : P (s, st)) :
    e.VisitClassesFit w b rs s st := by
  induction rs generalizing s st with
  | nil => trivial
  | cons r later ih =>
    have visited := Engine.visit_follows (w := w) (r := r) hb he later e.providers
      (fun _ hp => hp) s st
    refine ⟨g.visit_fits hb he e.providers (fun _ hp => hp) s st h, ?_⟩
    split
    · rename_i s₁ st₁ settled
      rw [settled] at visited
      exact ih s₁ st₁ (g.keeps h visited)
    · trivial

theorem start_fits (g : Guards w b c P) (hb : b.Gives Answer.Proper) (he : .engine e ∈ c)
    (h : P (s, st)) : e.StartFits w b s st := by
  simp only [Engine.StartFits]
  split
  · exact g.visitClasses_fit hb he _ s st h
  · trivial

/-- An engine that goes on first takes in the answer that it waited for. -/
theorem engine_resume_fits (g : Guards w b c P) (hb : b.Gives Answer.Proper) (he : .engine e ∈ c)
    {pause : Pause} (hp : ∀ p ∈ pause.providersLeft, p ∈ e.providers)
    (warrant : st.Warrants pause.request) {a : Answer} (given : Answer.Proper pause.request a)
    (h : P (s, st)) : e.ResumeFits w b pause a s st := by
  have now := g.kept _ _ (.accept (w := w) warrant given) h
  refine ⟨g.planned _ _ _ _ h warrant given, ?_⟩
  revert now
  rcases Engine.accept w pause.request a s st with ⟨s₀, st₀⟩
  intro now
  have visited := Engine.visit_follows (w := w) (r := pause.request.resource) hb he
    pause.classesLeft pause.providersLeft hp s₀ st₀
  refine ⟨g.visit_fits hb he _ hp s₀ st₀ now, ?_⟩
  split
  · rename_i s₁ st₁ settled
    rw [settled] at visited
    exact g.visitClasses_fit hb he _ s₁ st₁ (g.keeps now visited)
  · trivial

theorem run_fits (g : Guards w b c P) (hb : b.Gives Answer.Proper) (rest : Chain StaticLimiter)
    (hc : ∀ x ∈ rest, x ∈ c) (s : Site StaticLimiter) (st : ReviewState) (h : P (s, st)) :
    rest.RunFits w b s st := by
  induction rest generalizing s st with
  | nil => trivial
  | cons strategy rest ih =>
    have hrest : ∀ x ∈ rest, x ∈ c := fun x hx => hc x (List.mem_cons_of_mem _ hx)
    have head := hc strategy List.mem_cons_self
    cases strategy with
    | fallback => trivial
    | engine e =>
      have started := Engine.start_follows (w := w) hb head s st
      refine ⟨g.start_fits hb head h, ?_⟩
      split
      · rename_i s₁ st₁ settled
        rw [settled] at started
        exact ih hrest s₁ st₁ (g.keeps h started)
      · trivial
    | custom name ordinal apply =>
      have acted : Strides w b c Answer.Proper (s, st) (apply b s st).2 := .single (.custom head)
      simp only [Chain.RunFits]
      split
      · rename_i went
        rw [went] at acted
        exact ih hrest _ _ (g.keeps h acted)
      · trivial
      · rename_i went
        rw [went] at acted
        exact ih hrest _ _ (g.keeps h (acted.tail (.report _)))

/-- The sums of a review that goes on after an answer fit. -/
theorem resume_fits (g : Guards w b c P) (hb : b.Gives Answer.Proper)
    {cursor : Cursor StaticLimiter} (fits : cursor.Fits c)
    (warrant : st.Warrants cursor.pause.request) {a : Answer}
    (given : Answer.Proper cursor.pause.request a) (h : P (s, st)) :
    cursor.ResumeFits w b a s st := by
  have resumed := Engine.resume_follows (w := w) (s := s) hb fits.engine fits.providers warrant given
  refine ⟨g.engine_resume_fits hb fits.engine fits.providers warrant given h, ?_⟩
  split
  · rename_i s₁ st₁ settled
    rw [settled] at resumed
    exact g.run_fits hb _ fits.rest s₁ st₁ (g.keeps h resumed)
  · trivial

/-- The sums of a review that begins fit if those of its snapshot do. -/
theorem begin_fits (g : Guards w b c P) (hb : b.Gives Answer.Proper) (fits : s.queue.Fits)
    (h : P (Cycle.opened r s, Cycle.captured r s)) : Cycle.BeginFits w b c r s :=
  ⟨fits, g.run_fits hb c (fun _ hx => hx) _ _ h⟩

end Guards

end Muster
