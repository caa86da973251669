import Mathlib.Logic.Relation
import Muster.Review.Cycle

/-!
# What a review does

Between two waits a review does many things in one go. Here they are taken apart into strides: a
provider is asked whether it has headroom, a limit is read, a request is put to a provider, an
answer is taken in, a strategy of the host acts, an event is reported. Whatever every stride keeps,
a whole review keeps.

A request goes out only if it is warranted: it asks for units that are missing and that are left in
the budget of the review. It stays warranted for as long as the review waits, because nobody else
touches what the review knows. When it goes out, the provider has just said that it has headroom.

**Main statements.** `Engine.resume_follows`, `Chain.run_follows`, `Cursor.resume_follows` and
`Cycle.begin_follows`, `Cycle.resume_follows` take engines, chains and reviews apart into strides.
-/

namespace Muster

open Relation

/-- What a provider may answer to a request. -/
abbrev Answering := Request → Answer → Prop

/-- The answers that are given at once are among those that may be given. -/
def Behaviour.Gives (b : Behaviour) (gives : Answering) : Prop :=
  ∀ calls created q a, b.respond calls created q = some a → gives q a

theorem Behaviour.gives_any (b : Behaviour) : b.Gives fun _ _ => True := fun _ _ _ _ _ => trivial

/-- Strategies of the host have no part in the chain. -/
def Chain.Plain {L : Type} (c : Chain L) : Prop :=
  ∀ name ordinal apply, .custom name ordinal apply ∉ c

/-- The engine may turn to this provider for this class. -/
structure Engine.Admits (e : Engine) (p : Provider) (r : ResourceClass) : Prop where
  listed : p ∈ e.providers
  serves : p.serves r = true
  passes : e.filter p r = true

/-- The review has reason to make this request. -/
structure ReviewState.Warrants (st : ReviewState) (q : Request) : Prop where
  positive : q.units ≠ 0
  needed : q.units ≤ st.unsatisfied q.resource
  allowed : ∃ left, st.budget.remaining.find? ⟨q.provider.id, q.resource⟩ = some left ∧
    q.units ≤ left

/-- In the last call the review asked a provider whether it has headroom beyond `n` units, and on
the calls before it the provider answers with yes. -/
def Behaviour.Confirms (b : Behaviour) (review : ReviewId) (p : Provider) (r : ResourceClass)
    (n : Count) (calls : List Call) : Prop :=
  ∃ before, calls = before ++ [⟨some review, p.id, r, .headroom n (.ok true)⟩] ∧
    b.headroom before p r n = .ok true

/-- The provider has just said that it has headroom, and the review has reason to make this
request. -/
structure ReviewState.Prompts (st : ReviewState) (b : Behaviour) (calls : List Call)
    (q : Request) : Prop extends st.Warrants q where
  confirmed : b.Confirms st.review q.provider q.resource (st.plannedFor q.provider.id) calls

variable {L : Type} [Limiter L]

/-- The units that a limiter leaves to a slot: those of its answer, and none if it fails. -/
def Limiter.leaves (limiter : L) (slot : Slot) : Count :=
  match Limiter.remaining limiter slot.provider slot.resource with
  | .ok units => units
  | .error _ => 0

section Leaves

variable {limiter : L} {slot : Slot}

theorem Limiter.leaves_of_ok {units : Count}
    (answered : Limiter.remaining limiter slot.provider slot.resource = .ok units) :
    leaves limiter slot = units := by
  rw [leaves, answered]

theorem Limiter.leaves_of_error {e : LimitError}
    (failed : Limiter.remaining limiter slot.provider slot.resource = .error e) :
    leaves limiter slot = 0 := by
  rw [leaves, failed]

end Leaves

/-- An engine that reads a limit goes by the answer of the limiter. -/
theorem Engine.readLimit_eq (s : Site L) (slot : Slot) :
    Engine.readLimit s slot = Limiter.leaves s.limiter slot := rfl

/-- The smallest things that happen in a review. -/
inductive Stride (w : Wiring) (b : Behaviour) (c : Chain L) (gives : Answering) :
    Site L × ReviewState → Site L × ReviewState → Prop
  /-- A provider is asked whether it has headroom. -/
  | headroom {s st e p r} : .engine e ∈ c → e.Admits p r →
      Stride w b c gives (s, st) ((s.askHeadroom b (some st.review) p r (st.plannedFor p.id)).2, st)
  /-- A limit is looked up. -/
  | limit {s st} (slot : Slot) : st.unsatisfied slot.resource ≠ 0 →
      Stride w b c gives (s, st) (s, (st.remainingLimit slot (Limiter.leaves s.limiter slot)).2)
  /-- A request is put to a provider. -/
  | request {s st e q} : .engine e ∈ c → e.Admits q.provider q.resource → st.Prompts b s.calls q →
      Stride w b c gives (s, st) ((s.askCapacity b (some st.review) q).2, st)
  /-- The answer to a request is taken in. -/
  | accept {s st q a} : st.Warrants q → gives q a →
      Stride w b c gives (s, st) (Engine.accept w q a s st)
  /-- A strategy of the host acts. -/
  | custom {s st name ordinal apply} : .custom name ordinal apply ∈ c →
      Stride w b c gives (s, st) (apply b s st).2
  /-- An event is reported. -/
  | report {s st} (e : Event) : Stride w b c gives (s, st) (s.emit w e, st)

/-- Any number of strides. -/
abbrev Strides (w : Wiring) (b : Behaviour) (c : Chain L) (gives : Answering) :
    Site L × ReviewState → Site L × ReviewState → Prop :=
  ReflTransGen (Stride w b c gives)

variable {w : Wiring} {b : Behaviour} {c : Chain L} {gives : Answering}

/-- What every stride keeps, a sequence of strides keeps. -/
theorem Strides.keeps {P : Site L × ReviewState → Prop}
    (step : ∀ x y, Stride w b c gives x y → P x → P y) {x y : Site L × ReviewState}
    (h : Strides w b c gives x y) (hx : P x) : P y := by
  induction h with
  | refl => exact hx
  | tail _ h ih => exact step _ _ h ih

/-! ## Engines -/

/-- An engine at work got this far from `x`: if it waits, it waits for a warranted request. -/
def Progress.Follows (w : Wiring) (b : Behaviour) (c : Chain L) (gives : Answering) (e : Engine)
    (x : Site L × ReviewState) : Progress L → Prop
  | .settled s st => Strides w b c gives x (s, st)
  | .waiting s st pause => Strides w b c gives x (s, st) ∧ st.Warrants pause.request ∧
      ∀ p ∈ pause.providersLeft, p ∈ e.providers

theorem Progress.Follows.after {e : Engine} {x y : Site L × ReviewState} {g : Progress L}
    (hxy : Strides w b c gives x y) (h : g.Follows w b c gives e y) :
    g.Follows w b c gives e x := by
  cases g with
  | settled s st => exact hxy.trans h
  | waiting s st pause => exact ⟨hxy.trans h.1, h.2⟩

namespace Engine

variable {e : Engine} {p : Provider} {r : ResourceClass} {s : Site L} {st : ReviewState}

/-- After a look-up, the budget of the slot is what the look-up gave. -/
theorem find?_remainingLimit (st : ReviewState) (slot : Slot) (limit : Count) :
    (st.remainingLimit slot limit).2.budget.remaining.find? slot =
      some (st.remainingLimit slot limit).1 := by
  simp only [ReviewState.remainingLimit, Budget.lookUp]
  cases h : st.budget.remaining.find? slot with
  | none => simp
  | some left => exact h

theorem isEligible_follows (he : .engine e ∈ c) (hp : p ∈ e.providers) {answer : Bool}
    {s' : Site L} (h : e.isEligible b r p s st = (answer, s')) :
    Strides w b c gives (s, st) (s', st) ∧ (answer = true →
      e.Admits p r ∧ b.Confirms st.review p r (st.plannedFor p.id) s'.calls) := by
  simp only [isEligible] at h
  by_cases pass : (p.serves r && e.filter p r) = true
  · rw [if_pos pass] at h
    rw [Bool.and_eq_true] at pass
    have admits : e.Admits p r := ⟨hp, pass.1, pass.2⟩
    have asked : Strides w b c gives (s, st)
        ((s.askHeadroom b (some st.review) p r (st.plannedFor p.id)).2, st) :=
      .single (.headroom he admits)
    split at h
    · rename_i said
      cases h
      have answer : b.headroom s.calls p r (st.plannedFor p.id) = .ok true :=
        congrArg Prod.fst said
      have calls := congrArg (·.2.calls) said
      simp only [Site.askHeadroom, answer] at calls
      rw [said] at asked
      exact ⟨asked, fun _ => ⟨admits, s.calls, calls.symm, answer⟩⟩
    · rename_i said
      cases h
      rw [said] at asked
      exact ⟨asked, fun h => absurd h Bool.false_ne_true⟩
  · rw [if_neg pass] at h
    cases h
    exact ⟨.refl, fun h => absurd h Bool.false_ne_true⟩

/-- A consultation that comes to a request comes to a warranted one, right after the provider has
said that it has headroom. -/
theorem consult_follows (he : .engine e ∈ c) (hp : p ∈ e.providers) (hr : st.unsatisfied r ≠ 0)
    {units : Count} {s' : Site L} {st' : ReviewState}
    (h : e.consult b r p s st = (units, s', st')) :
    Strides w b c gives (s, st) (s', st') ∧
      (units ≠ 0 → e.Admits p r ∧ st'.Prompts b s'.calls ⟨p, r, units⟩) := by
  simp only [consult] at h
  split at h
  · rename_i said
    cases h
    exact ⟨(isEligible_follows he hp said).1, fun h => absurd rfl h⟩
  · rename_i s₁ said
    obtain ⟨asked, admits⟩ : Strides w b c gives (s, st) (s₁, st) ∧ _ :=
      isEligible_follows he hp said
    have left := find?_remainingLimit st ⟨p.id, r⟩ (Limiter.leaves s₁.limiter ⟨p.id, r⟩)
    rw [readLimit_eq] at h
    cases h
    refine ⟨asked.tail (.limit ⟨p.id, r⟩ hr), fun positive =>
      ⟨(admits rfl).1, ⟨positive, ?_, _, left, ?_⟩, (admits rfl).2⟩⟩
    · exact Std.min_le_left
    · exact Std.min_le_right

/-- The visit of an engine to providers for a class. -/
theorem visit_follows (hb : b.Gives gives) (he : .engine e ∈ c) (later : List ResourceClass)
    (ps : Registry) (hp : ∀ p ∈ ps, p ∈ e.providers) (s : Site L) (st : ReviewState) :
    (e.visit w b r later ps s st).Follows w b c gives e (s, st) := by
  induction ps generalizing s st with
  | nil => exact .refl
  | cons p rest ih =>
    have hrest : ∀ q ∈ rest, q ∈ e.providers := fun q hq => hp q (List.mem_cons_of_mem _ hq)
    simp only [visit]
    by_cases hr : st.unsatisfied r = 0
    · rw [if_pos hr]
      exact .refl
    · rw [if_neg hr]
      rcases hc : e.consult b r p s st with ⟨units, s₁, st₁⟩
      obtain ⟨consulted, prompts⟩ : Strides w b c gives (s, st) (s₁, st₁) ∧ _ :=
        consult_follows he (hp p List.mem_cons_self) hr hc
      by_cases positive : units = 0
      · simp only [if_pos positive]
        exact (ih hrest s₁ st₁).after consulted
      · simp only [if_neg positive]
        obtain ⟨admits, prompt⟩ := prompts positive
        have asked : Strides w b c gives (s, st) _ := consulted.tail (.request he admits prompt)
        split
        · rename_i s₂ silent
          rw [silent] at asked
          exact ⟨asked, prompt.toWarrants, hrest⟩
        · rename_i answer s₂ said
          have given : gives ⟨p, r, units⟩ answer := hb _ _ _ _ (congrArg Prod.fst said)
          rw [said] at asked
          exact (ih hrest _ _).after (asked.tail (.accept prompt.toWarrants given))

theorem visitClasses_follows (hb : b.Gives gives) (he : .engine e ∈ c) (rs : List ResourceClass)
    (s : Site L) (st : ReviewState) :
    (e.visitClasses w b rs s st).Follows w b c gives e (s, st) := by
  induction rs generalizing s st with
  | nil => exact .refl
  | cons r later ih =>
    have visited := visit_follows (w := w) (r := r) hb he later e.providers (fun _ hp => hp) s st
    simp only [visitClasses]
    split
    · rename_i s₁ st₁ h
      rw [h] at visited
      exact (ih s₁ st₁).after visited
    · rename_i h
      rwa [h] at visited

theorem start_follows (hb : b.Gives gives) (he : .engine e ∈ c) (s : Site L) (st : ReviewState) :
    (e.start w b s st).Follows w b c gives e (s, st) := by
  simp only [start]
  split
  · exact visitClasses_follows hb he _ s st
  · exact .refl

/-- An engine that goes on first takes in the answer that it waited for. -/
theorem resume_follows (hb : b.Gives gives) (he : .engine e ∈ c) {pause : Pause}
    (hp : ∀ p ∈ pause.providersLeft, p ∈ e.providers) (warrant : st.Warrants pause.request)
    {answer : Answer} (given : gives pause.request answer) :
    (e.resume w b pause answer s st).Follows w b c gives e (s, st) := by
  have accepted : Strides w b c gives (s, st) (accept w pause.request answer s st) :=
    .single (.accept warrant given)
  simp only [resume]
  revert accepted
  rcases accept w pause.request answer s st with ⟨s₀, st₀⟩
  intro accepted
  have visited := visit_follows (w := w) (r := pause.request.resource) hb he pause.classesLeft
    pause.providersLeft hp s₀ st₀
  simp only
  split
  · rename_i s₁ st₁ h
    rw [h] at visited
    exact ((visitClasses_follows hb he _ s₁ st₁).after visited).after accepted
  · rename_i h
    rw [h] at visited
    exact visited.after accepted

end Engine

/-! ## Chains -/

/-- A waiting chain whose parts belong to the chain `c`. -/
structure Cursor.Fits (c : Chain L) (cursor : Cursor L) : Prop where
  engine : .engine cursor.engine ∈ c
  providers : ∀ p ∈ cursor.pause.providersLeft, p ∈ cursor.engine.providers
  rest : ∀ x ∈ cursor.rest, x ∈ c

/-- A chain at work got this far from `x`. -/
def ChainProgress.Follows (w : Wiring) (b : Behaviour) (c : Chain L) (gives : Answering)
    (x : Site L × ReviewState) : ChainProgress L → Prop
  | .finished s st _ => Strides w b c gives x (s, st)
  | .waiting s st cursor => Strides w b c gives x (s, st) ∧ cursor.Fits c ∧
      st.Warrants cursor.pause.request

theorem ChainProgress.Follows.after {x y : Site L × ReviewState} {g : ChainProgress L}
    (hxy : Strides w b c gives x y) (h : g.Follows w b c gives y) : g.Follows w b c gives x := by
  cases g with
  | finished s st t => exact hxy.trans h
  | waiting s st cursor => exact ⟨hxy.trans h.1, h.2⟩

theorem Chain.run_follows (hb : b.Gives gives) (rest : Chain L) (hc : ∀ x ∈ rest, x ∈ c)
    (t : Tally) (s : Site L) (st : ReviewState) :
    (Chain.run w b rest t s st).Follows w b c gives (s, st) := by
  induction rest generalizing t s st with
  | nil => exact .refl
  | cons strategy rest ih =>
    have hrest : ∀ x ∈ rest, x ∈ c := fun x hx => hc x (List.mem_cons_of_mem _ hx)
    have head := hc strategy List.mem_cons_self
    simp only [Chain.run]
    split
    · exact .refl
    · rename_i e
      have started := Engine.start_follows (w := w) hb head s st
      split
      · rename_i s₁ st₁ h
        rw [h] at started
        exact (ih hrest _ s₁ st₁).after started
      · rename_i h
        rw [h] at started
        exact ⟨started.1, ⟨head, started.2.2, hrest⟩, started.2.1⟩
    · rename_i name ordinal apply
      have acted : Strides w b c gives (s, st) (apply b s st).2 := .single (.custom head)
      split
      · rename_i h
        rw [h] at acted
        exact (ih hrest _ _ _).after acted
      · rename_i h
        rw [h] at acted
        exact acted
      · rename_i h
        rw [h] at acted
        exact (ih hrest _ _ _).after (acted.tail (.report _))

theorem Cursor.resume_follows (hb : b.Gives gives) {cursor : Cursor L} (fits : cursor.Fits c)
    {s : Site L} {st : ReviewState} (warrant : st.Warrants cursor.pause.request) {answer : Answer}
    (given : gives cursor.pause.request answer) :
    (cursor.resume w b answer s st).Follows w b c gives (s, st) := by
  have resumed :=
    Engine.resume_follows (w := w) (s := s) hb fits.engine fits.providers warrant given
  simp only [Cursor.resume]
  split
  · rename_i s₁ st₁ h
    rw [h] at resumed
    exact (Chain.run_follows hb _ fits.rest _ s₁ st₁).after resumed
  · rename_i h
    rw [h] at resumed
    exact ⟨resumed.1, ⟨fits.engine, resumed.2.2, fits.rest⟩, resumed.2.1⟩

/-! ## Reviews -/

namespace Cycle

/-- A review of a class got this far from `x`: it waits, or it has put what it planned in flight. -/
def Follows (w : Wiring) (b : Behaviour) (c : Chain L) (gives : Answering) (r : ResourceClass)
    (x : Site L × ReviewState) : Site L × Cycle L → Prop
  | (s, .waiting st cursor) => Strides w b c gives x (s, st) ∧ cursor.Fits c ∧
      st.Warrants cursor.pause.request
  | (s, .finished outcome) => ∃ s₁ st₁ t, Strides w b c gives x (s₁, st₁) ∧
      conclude w r s₁ st₁ t = (s, .finished outcome)

theorem settle_follows {r : ResourceClass} {x : Site L × ReviewState} {g : ChainProgress L}
    (h : g.Follows w b c gives x) : Follows w b c gives r x (settle w r g) := by
  cases g with
  | finished s st t => exact ⟨s, st, t, h, rfl⟩
  | waiting s st cursor => exact h

/-- The site on which a review of a class works once it has begun. -/
def opened (r : ResourceClass) (s : Site L) : Site L :=
  { s with line := s.line.begin r, reviews := s.reviews + 1 }

/-- What a review of a class knows when it begins. -/
def captured (r : ResourceClass) (s : Site L) : ReviewState :=
  .capture (Id.fresh s.reviews) s.queue [r]

theorem begin_follows (hb : b.Gives gives) (r : ResourceClass) (s : Site L) :
    Follows w b c gives r (opened r s, captured r s) (begin w b c r s) :=
  settle_follows (Chain.run_follows hb c (fun _ hx => hx) {} _ _)

theorem resume_follows (hb : b.Gives gives) (r : ResourceClass) {cursor : Cursor L}
    (fits : cursor.Fits c) {s : Site L} {st : ReviewState}
    (warrant : st.Warrants cursor.pause.request) {answer : Answer}
    (given : gives cursor.pause.request answer) :
    Follows w b c gives r (s, st) (resume w b r st cursor answer s) :=
  settle_follows (Cursor.resume_follows hb fits warrant given)

end Cycle

end Muster
