import Muster.Proofs.Exclusion
import Muster.Proofs.Stock

/-!
# Reviews in step

Two reviews of one class that see the same do the same: they turn to the same providers, ask for the
same units, come to wait for the same requests and end with the same tally. What it is to see the
same is left open here. It is a relation between two sites with the states of the two reviews, which
may also depend on how many strategies have failed; `Lockstep` lists what the relation has to
survive: a look at a provider, a request, an answer that is taken in, a strategy of the host.

A relation that holds only between equals, and only where an invariant holds, makes this the
statement that a review keeps the invariant.

Some relations survive an answer only if the capacity in it is new. Whether it is shows in the list
of all capacity that was created in the end, of which every list before is a part.

**Main statements.** `Lockstep.begin` and `Lockstep.resume`: reviews that begin in step, or get
their answers in step, are in step afterwards. `System.Poised.act`: in a run every review knows its
class only and has stopped at a place of its chain.
-/

namespace Muster

variable {L : Type}

/-! ## A review of one class -/

namespace ReviewState

/-- The review knows the class `r` and no other. -/
def Only (st : ReviewState) (r : ResourceClass) (d : ClassDemand) : Prop :=
  st.classes = (∅ : Table ResourceClass ClassDemand).insert r d

namespace Only

variable {st : ReviewState} {r : ResourceClass} {d : ClassDemand}

theorem find? (h : st.Only r d) : st.classes.find? r = some d := by
  rw [h, Table.find?_insert, if_pos rfl]

theorem keys (h : st.Only r d) : st.classes.keys = [r] := by
  rw [h]
  rfl

theorem unsatisfied (h : st.Only r d) : st.unsatisfied r = d.counts.shortfall := by
  simp only [ReviewState.unsatisfied, h.find?]

theorem captured (r : ResourceClass) {L : Type} (s : Site L) :
    (Cycle.captured r s).Only r (.ofSnapshot (s.queue.snapshot r)) := rfl

theorem links (h : st.Only r d) (p : ProviderId) (planned : List PlannedCapacity) :
    (st.recordPlanned r p planned).1 =
      (linkUnits (planned.map fun p => (p.id, p.units.toNat)) d.items).2 := by
  simp only [recordPlanned, h.find?]

theorem recordPlanned (h : st.Only r d) (p : ProviderId) (planned : List PlannedCapacity) :
    (st.recordPlanned r p planned).2.Only r
      ⟨(linkUnits (planned.map fun p => (p.id, p.units.toNat)) d.items).1,
        d.counts.recordPlanned (PlannedCapacity.totalUnits planned)⟩ := by
  simp only [ReviewState.recordPlanned, h.find?]
  show st.classes.insert r _ = _
  rw [show st.classes = _ from h, Table.insert_insert]

theorem accept {L : Type} [Limiter L] (w : Wiring) {q : Request} (a : Answer) (s : Site L)
    (h : st.Only q.resource d) : ∃ d', (Engine.accept w q a s st).2.Only q.resource d' := by
  cases a with
  | error e => exact ⟨d, h⟩
  | ok planned =>
    simp only [Engine.accept]
    split
    · exact ⟨d, h⟩
    · exact ⟨_, h.recordPlanned q.provider.id planned⟩

end Only

end ReviewState

/-- A look at a provider is kept among the calls, and a limit in the budget. -/
theorem Engine.consult_frame {L : Type} [Limiter L] (e : Engine) (b : Behaviour) (r : ResourceClass)
    (p : Provider) (s : Site L) (st : ReviewState) :
    ∃ calls budget, (e.consult b r p s st).2 = ({ s with calls }, { st with budget }) := by
  obtain ⟨calls, asked⟩ : ∃ calls, (e.isEligible b r p s st).2 = { s with calls } := by
    simp only [isEligible]
    split
    · split <;> rename_i said <;> exact ⟨_, (congrArg Prod.snd said).symm⟩
    · exact ⟨s.calls, rfl⟩
  simp only [consult]
  split
  · rename_i said
    rw [said] at asked
    exact ⟨calls, st.budget, congrArg (·, st) asked⟩
  · rename_i said
    rw [said] at asked
    simp only at asked
    subst asked
    exact ⟨calls, _, rfl⟩

/-! ## Capacity that was created -/

/-- Strategies of the host only add to the capacity that was created. -/
def Chain.OnlyCreates (c : Chain L) : Prop :=
  ∀ name ordinal apply, .custom name ordinal apply ∈ c → ∀ b s st,
    s.created <+: (apply b s st).2.1.created

/-- Strategies of the host fail, and do nothing else. -/
def Chain.OnlyFails (c : Chain L) : Prop :=
  ∀ name ordinal apply, .custom name ordinal apply ∈ c → ∀ b s st,
    ∃ e, apply b s st = (.error e, s, st)

theorem Chain.Plain.onlyFails {c : Chain L} (h : c.Plain) : c.OnlyFails :=
  fun _ _ _ mem => absurd mem (h _ _ _)

theorem Chain.OnlyFails.onlyCreates {c : Chain L} (h : c.OnlyFails) : c.OnlyCreates := by
  intro name ordinal apply mem b s st
  obtain ⟨e, acted⟩ := h name ordinal apply mem b s st
  exact ⟨[], by rw [acted, List.append_nil]⟩

theorem Site.emit_created (w : Wiring) (e : Event) (s : Site L) :
    (s.emit w e).created = s.created := by
  obtain ⟨journal, same⟩ := emit_frame w e s
  rw [same]

theorem Site.tracks_created (w : Wiring) (links : List Link) (s : Site L) :
    (links.foldl (track w) s).created = s.created := by
  obtain ⟨queue, kept, same⟩ := tracks_frame w links s
  rw [same]

section Created

variable [Limiter L] {w : Wiring} {b : Behaviour} {c : Chain L} {gives : Answering}

theorem Engine.accept_created (w : Wiring) (q : Request) (a : Answer) (s : Site L)
    (st : ReviewState) :
    (Engine.accept w q a s st).1.created = s.created ++ a.toOption.getD [] := by
  cases a with
  | error e => exact (Site.emit_created _ _ _).trans (List.append_nil _).symm
  | ok planned =>
    simp only [Engine.accept]
    split
    · rfl
    · exact (Site.emit_created _ _ _).trans (Site.tracks_created _ _ _)

theorem Strides.created (adds : c.OnlyCreates) {x y : Site L × ReviewState}
    (h : Strides w b c gives x y) : x.1.created <+: y.1.created := by
  refine h.keeps (P := fun y => x.1.created <+: y.1.created) ?_ (List.prefix_refl _)
  intro y z stride before
  refine before.trans ?_
  cases stride with
  | headroom | limit | request => exact List.prefix_refl _
  | accept =>
    rw [Engine.accept_created]
    exact List.prefix_append _ _
  | custom mem => exact adds _ _ _ mem _ _ _
  | report e =>
    show _ <+: (Site.emit w e _).created
    exact ⟨[], by rw [Site.emit_created, List.append_nil]⟩

omit [Limiter L] in
theorem Cycle.conclude_created (w : Wiring) (r : ResourceClass) (s : Site L) (st : ReviewState)
    (t : Tally) : (Cycle.conclude w r s st t).1.created = s.created := by
  obtain ⟨journal, same⟩ := Cycle.conclude_frame w r s st t
  rw [same]

end Created

/-- The capacity that was created when an engine had got this far. -/
def Progress.created : Progress L → List PlannedCapacity
  | .settled s _ | .waiting s _ _ => s.created

/-- The capacity that was created when a chain had got this far. -/
def ChainProgress.created : ChainProgress L → List PlannedCapacity
  | .finished s _ _ | .waiting s _ _ => s.created

/-- A chain goes on after one of its engines. -/
def Progress.onward [Limiter L] (w : Wiring) (b : Behaviour) (e : Engine) (rest : Chain L)
    (t : Tally) : Progress L → ChainProgress L
  | .settled s st => Chain.run w b rest t s st
  | .waiting s st pause => .waiting s st ⟨e, pause, rest, t⟩

theorem Chain.run_engine [Limiter L] (w : Wiring) (b : Behaviour) (e : Engine) (rest : Chain L)
    (t : Tally) (s : Site L) (st : ReviewState) :
    Chain.run w b (.engine e :: rest) t s st =
      (e.start w b s st).onward w b e rest { t with run := t.run + 1 } := by
  simp only [Chain.run]
  cases e.start w b s st <;> rfl

theorem Cursor.resume_eq [Limiter L] (w : Wiring) (b : Behaviour) (cursor : Cursor L) (a : Answer)
    (s : Site L) (st : ReviewState) : cursor.resume w b a s st =
      (cursor.engine.resume w b cursor.pause a s st).onward w b cursor.engine cursor.rest
        cursor.tally := by
  simp only [Cursor.resume]
  cases cursor.engine.resume w b cursor.pause a s st <;> rfl

/-! ## What has to be kept -/

/-- The pairs of answers that a request may get on two sites. -/
abbrev Responding (L : Type) := Site L → Site L → Request → Answer → Answer → Prop

/-- Two sites with the states of a review on each, after so many failures of strategies. -/
abbrev Abreast (L : Type) := Nat → Site L × ReviewState → Site L × ReviewState → Prop

/-- Reviews of the class `r` that are related by `R` do the same and stay related. -/
structure Lockstep [Limiter L] (w : Wiring) (b : Behaviour) (c : Chain L) (r : ResourceClass)
    (gives : Responding L) (Good : List PlannedCapacity → Prop) (R : Abreast L) : Prop where
  adds : c.OnlyCreates
  /-- What is good in the end was good before. -/
  early : ∀ {l m}, l <+: m → Good m → Good l
  keys : ∀ {n x y}, R n x y → x.2.classes.keys = [r] ∧ y.2.classes.keys = [r]
  unsatisfied : ∀ {n x y}, R n x y → x.2.unsatisfied r = y.2.unsatisfied r
  consult : ∀ {n s st s' st'} {e : Engine} {p : Provider}, .engine e ∈ c → p ∈ e.providers →
    R n (s, st) (s', st') → (e.consult b r p s st).1 = (e.consult b r p s' st').1 ∧
      R n (e.consult b r p s st).2 (e.consult b r p s' st').2
  /-- A request is answered at once on both sides or on neither. -/
  ask : ∀ {n s st s' st'} {q : Request}, q.resource = r → R n (s, st) (s', st') →
    let x := s.askCapacity b (some st.review) q
    let y := s'.askCapacity b (some st'.review) q
    R n (x.2, st) (y.2, st') ∧ x.1.isSome = y.1.isSome ∧
      ∀ a a', x.1 = some a → y.1 = some a' → gives x.2 y.2 q a a'
  accept : ∀ {n s st s' st'} {q : Request} {a a'}, q.resource = r → R n (s, st) (s', st') →
    gives s s' q a a' → Good (Engine.accept w q a s st).1.created →
    Good (Engine.accept w q a' s' st').1.created →
    R n (Engine.accept w q a s st) (Engine.accept w q a' s' st')
  custom : ∀ {n s st s' st' name ordinal apply}, .custom name ordinal apply ∈ c →
    R n (s, st) (s', st') → match apply b s st, apply b s' st' with
      | (.ok d, x), (.ok d', y) => d = d' ∧ R n x y
      | (.error e, s, st), (.error e', s', st') =>
        R (n + 1) (s.emit w (.strategyFailed st.review name e.message), st)
          (s'.emit w (.strategyFailed st'.review name e'.message), st')
      | _, _ => False

/-- A request for the only class under review, which was not answered at once. -/
structure Pause.Open (b : Behaviour) (r : ResourceClass) (pause : Pause) : Prop where
  resource : pause.request.resource = r
  last : pause.classesLeft = []
  silent : ∃ calls created, b.respond calls created pause.request = none

/-- Engines have got equally far. -/
inductive Progress.InStep (b : Behaviour) (e : Engine) (r : ResourceClass) (R : Abreast L)
    (n : Nat) : Progress L → Progress L → Prop
  | settled {s st s' st'} : R n (s, st) (s', st') →
      InStep b e r R n (.settled s st) (.settled s' st')
  | waiting {s st s' st'} {pause : Pause} : pause.Open b r →
      (∀ p ∈ pause.providersLeft, p ∈ e.providers) → R n (s, st) (s', st') →
      InStep b e r R n (.waiting s st pause) (.waiting s' st' pause)

/-- A waiting chain whose parts belong to the chain `c` under review of the class `r`, and in which
`n` strategies have failed. -/
structure Cursor.Follows (b : Behaviour) (c : Chain L) (r : ResourceClass) (n : Nat)
    (cursor : Cursor L) : Prop extends cursor.Fits c, cursor.pause.Open b r where
  failed : cursor.tally.failed = UInt32.ofNat n
  few : n + cursor.rest.length ≤ c.length

/-- Chains have got equally far. -/
inductive ChainProgress.InStep (b : Behaviour) (c : Chain L) (r : ResourceClass) (R : Abreast L) :
    ChainProgress L → ChainProgress L → Prop
  | finished {n s st s' st'} {t : Tally} : t.failed = UInt32.ofNat n → n ≤ c.length →
      R n (s, st) (s', st') → InStep b c r R (.finished s st t) (.finished s' st' t)
  | waiting {n s st s' st'} {cursor : Cursor L} : cursor.Follows b c r n → R n (s, st) (s', st') →
      InStep b c r R (.waiting s st cursor) (.waiting s' st' cursor)

/-- Reviews have got equally far: they wait for the same request, or they end in step. -/
inductive Cycle.InStep [Limiter L] (w : Wiring) (b : Behaviour) (c : Chain L) (r : ResourceClass)
    (R : Abreast L) : Site L × Cycle L → Site L × Cycle L → Prop
  | finished {n s st s' st'} {t : Tally} {x y} : t.failed = UInt32.ofNat n → n ≤ c.length →
      R n (s, st) (s', st') → x = conclude w r s st t → y = conclude w r s' st' t →
      InStep w b c r R x y
  | waiting {n s st s' st'} {cursor : Cursor L} : cursor.Follows b c r n → R n (s, st) (s', st') →
      InStep w b c r R (s, .waiting st cursor) (s', .waiting st' cursor)

namespace Lockstep

variable [Limiter L] {w : Wiring} {b : Behaviour} {c : Chain L} {r : ResourceClass}
  {gives : Responding L} {Good : List PlannedCapacity → Prop} {R : Abreast L} {n : Nat}
  {s s' : Site L} {st st' : ReviewState} {e : Engine}

/-! ## Engines -/

theorem visit_created (lock : Lockstep w b c r gives Good R) (he : .engine e ∈ c)
    (ps : Registry) (hp : ∀ p ∈ ps, p ∈ e.providers) (s : Site L) (st : ReviewState) :
    s.created <+: (e.visit w b r [] ps s st).created := by
  have follows := e.visit_follows (w := w) (r := r) b.gives_any he [] ps hp s st
  cases h : e.visit w b r [] ps s st with
  | settled s' st' =>
    rw [h] at follows
    exact Strides.created lock.adds follows
  | waiting s' st' pause =>
    rw [h] at follows
    exact Strides.created lock.adds follows.1

theorem visit (lock : Lockstep w b c r gives Good R) (he : .engine e ∈ c) (ps : Registry)
    (hp : ∀ p ∈ ps, p ∈ e.providers) (h : R n (s, st) (s', st'))
    (good : Good (e.visit w b r [] ps s st).created)
    (good' : Good (e.visit w b r [] ps s' st').created) :
    Progress.InStep b e r R n (e.visit w b r [] ps s st) (e.visit w b r [] ps s' st') := by
  induction ps generalizing s st s' st' with
  | nil => exact .settled h
  | cons p rest ih =>
    have hrest : ∀ q ∈ rest, q ∈ e.providers := fun q hq => hp q (List.mem_cons_of_mem _ hq)
    have lacks := lock.unsatisfied h
    obtain ⟨units, consulted⟩ := lock.consult he (hp p List.mem_cons_self) h
    simp only [Engine.visit] at good good' ⊢
    simp only at lacks
    by_cases covered : st.unsatisfied r = 0
    · rw [if_pos covered, if_pos (lacks.symm.trans covered)]
      exact .settled h
    rw [if_neg covered] at good ⊢
    rw [if_neg fun e => covered (lacks.trans e)] at good' ⊢
    revert units consulted good good'
    rcases e.consult b r p s st with ⟨units, s₁, st₁⟩
    rcases e.consult b r p s' st' with ⟨units', s₁', st₁'⟩
    intro same consulted good good'
    obtain rfl : units = units' := same
    simp only at good good' ⊢
    by_cases none : units = 0
    · rw [if_pos none] at good good' ⊢
      rw [if_pos none]
      exact ih hrest consulted good good'
    rw [if_neg none] at good good' ⊢
    rw [if_neg none]
    obtain ⟨asked, prompt, given⟩ := lock.ask (q := ⟨p, r, units⟩) rfl consulted
    have silent : (s₁.askCapacity b (some st₁.review) ⟨p, r, units⟩).1 =
      b.respond s₁.calls s₁.created.length ⟨p, r, units⟩ := rfl
    revert good good' asked prompt given silent
    rcases s₁.askCapacity b (some st₁.review) ⟨p, r, units⟩ with ⟨answer, s₂⟩
    rcases s₁'.askCapacity b (some st₁'.review) ⟨p, r, units⟩ with ⟨answer', s₂'⟩
    intro good good' asked prompt given silent
    cases answer with
    | none =>
      cases answer' with
      | none => exact .waiting ⟨rfl, rfl, _, _, silent.symm⟩ hrest asked
      | some a' => cases prompt
    | some a =>
      cases answer' with
      | none => cases prompt
      | some a' =>
        refine ih hrest ?_ good good'
        refine lock.accept rfl asked (given a a' rfl rfl) ?_ ?_
        · exact lock.early (lock.visit_created he rest hrest _ _) good
        · exact lock.early (lock.visit_created he rest hrest _ _) good'

/-- An engine that plans the only class under review. -/
theorem visitClasses_one (e : Engine) (w : Wiring) (b : Behaviour) (r : ResourceClass) (s : Site L)
    (st : ReviewState) : e.visitClasses w b [r] s st = e.visit w b r [] e.providers s st := by
  simp only [Engine.visitClasses]
  split <;> rename_i h <;> exact h.symm

theorem start (lock : Lockstep w b c r gives Good R) (he : .engine e ∈ c)
    (h : R n (s, st) (s', st')) (good : Good (e.start w b s st).created)
    (good' : Good (e.start w b s' st').created) :
    Progress.InStep b e r R n (e.start w b s st) (e.start w b s' st') := by
  obtain ⟨one, one'⟩ := lock.keys h
  simp only at one one'
  unfold Engine.start at good good' ⊢
  by_cases enabled : e.enabled = true
  · rw [if_pos enabled] at good good' ⊢
    rw [if_pos enabled]
    rw [one, visitClasses_one] at good ⊢
    rw [one', visitClasses_one] at good' ⊢
    exact lock.visit he _ (fun _ hp => hp) h good good'
  · rw [if_neg enabled, if_neg enabled]
    exact .settled h

/-- An engine that goes on with the only class under review. -/
theorem resume_one (e : Engine) (w : Wiring) (b : Behaviour) {pause : Pause} (a : Answer)
    (s : Site L) (st : ReviewState) (last : pause.classesLeft = []) :
    e.resume w b pause a s st = e.visit w b pause.request.resource [] pause.providersLeft
      (Engine.accept w pause.request a s st).1 (Engine.accept w pause.request a s st).2 := by
  simp only [Engine.resume, last, Engine.visitClasses]
  split <;> rename_i h <;> exact h.symm

theorem engine_resume (lock : Lockstep w b c r gives Good R) (he : .engine e ∈ c) {pause : Pause}
    (hr : pause.request.resource = r) (last : pause.classesLeft = [])
    (hp : ∀ p ∈ pause.providersLeft, p ∈ e.providers) (h : R n (s, st) (s', st')) {a a' : Answer}
    (given : gives s s' pause.request a a')
    (good : Good (e.resume w b pause a s st).created)
    (good' : Good (e.resume w b pause a' s' st').created) :
    Progress.InStep b e r R n (e.resume w b pause a s st) (e.resume w b pause a' s' st') := by
  rw [resume_one e w b _ _ _ last, hr] at good good' ⊢
  rw [resume_one e w b _ _ _ last, hr]
  refine lock.visit he _ hp ?_ good good'
  refine lock.accept hr h given ?_ ?_
  · exact lock.early (lock.visit_created he _ hp _ _) good
  · exact lock.early (lock.visit_created he _ hp _ _) good'

/-! ## Chains -/

theorem run_created (lock : Lockstep w b c r gives Good R) (rest : Chain L)
    (hc : ∀ x ∈ rest, x ∈ c) (t : Tally) (s : Site L) (st : ReviewState) :
    s.created <+: (Chain.run w b rest t s st).created := by
  have follows := Chain.run_follows (w := w) b.gives_any rest hc t s st
  cases h : Chain.run w b rest t s st with
  | finished s' st' t' =>
    rw [h] at follows
    exact Strides.created lock.adds follows
  | waiting s' st' cursor =>
    rw [h] at follows
    exact Strides.created lock.adds follows.1

theorem onward_created (lock : Lockstep w b c r gives Good R) {rest : Chain L}
    (hc : ∀ x ∈ rest, x ∈ c) (t : Tally) (g : Progress L) :
    g.created <+: (g.onward w b e rest t).created := by
  cases g with
  | settled s st => exact lock.run_created rest hc t s st
  | waiting s st pause => exact List.prefix_refl _

theorem run (lock : Lockstep w b c r gives Good R) (rest : Chain L) (hc : ∀ x ∈ rest, x ∈ c)
    {t : Tally} (failed : t.failed = UInt32.ofNat n) (few : n + rest.length ≤ c.length)
    (h : R n (s, st) (s', st')) (good : Good (Chain.run w b rest t s st).created)
    (good' : Good (Chain.run w b rest t s' st').created) :
    ChainProgress.InStep b c r R (Chain.run w b rest t s st) (Chain.run w b rest t s' st') := by
  induction rest generalizing n t s st s' st' with
  | nil => exact .finished failed (Nat.le_of_add_right_le few) h
  | cons strategy rest ih =>
    have hrest : ∀ x ∈ rest, x ∈ c := fun x hx => hc x (List.mem_cons_of_mem _ hx)
    have head := hc strategy List.mem_cons_self
    rw [List.length_cons] at few
    cases strategy with
    | fallback => exact .finished failed (by omega) h
    | engine e =>
      rw [Chain.run_engine] at good good' ⊢
      rw [Chain.run_engine]
      have started := lock.start head h (lock.early (lock.onward_created hrest _ _) good)
        (lock.early (lock.onward_created hrest _ _) good')
      generalize e.start w b s st = g at started good ⊢
      generalize e.start w b s' st' = g' at started good' ⊢
      cases started with
      | settled h => exact ih hrest failed (by omega) h good good'
      | waiting isOpen hp h =>
        exact .waiting ⟨⟨head, hp, hrest⟩, isOpen, failed, by simp only; omega⟩ h
    | custom name ordinal apply =>
      have acted := lock.custom head h
      simp only [Chain.run] at good good' ⊢
      revert acted good good'
      rcases apply b s st with ⟨result, s₁, st₁⟩
      rcases apply b s' st' with ⟨result', s₁', st₁'⟩
      rcases result with error | decision <;> rcases result' with error' | decision'
      · intro good good' acted
        refine ih hrest ?_ (by omega) acted good good'
        rw [failed, UInt32.ofNat_add]
        rfl
      · exact fun _ _ impossible => impossible.elim
      · exact fun _ _ impossible => impossible.elim
      · intro good good' acted
        obtain ⟨rfl, acted⟩ := acted
        cases decision with
        | proceed => exact ih hrest failed (by omega) acted good good'
        | complete => exact .finished failed (by omega) acted

theorem cursor_resume (lock : Lockstep w b c r gives Good R) {cursor : Cursor L}
    (follows : cursor.Follows b c r n) (h : R n (s, st) (s', st')) {a a' : Answer}
    (given : gives s s' cursor.pause.request a a')
    (good : Good (cursor.resume w b a s st).created)
    (good' : Good (cursor.resume w b a' s' st').created) :
    ChainProgress.InStep b c r R (cursor.resume w b a s st) (cursor.resume w b a' s' st') := by
  rw [Cursor.resume_eq] at good good' ⊢
  rw [Cursor.resume_eq]
  have resumed := lock.engine_resume follows.engine follows.resource follows.last follows.providers
    h given (lock.early (lock.onward_created follows.rest _ _) good)
    (lock.early (lock.onward_created follows.rest _ _) good')
  generalize cursor.engine.resume w b cursor.pause a s st = g at resumed good ⊢
  generalize cursor.engine.resume w b cursor.pause a' s' st' = g' at resumed good' ⊢
  cases resumed with
  | settled h => exact lock.run cursor.rest follows.rest follows.failed follows.few h good good'
  | waiting isOpen hp h =>
    exact .waiting ⟨⟨follows.engine, hp, follows.rest⟩, isOpen, follows.failed, follows.few⟩ h

/-! ## Reviews -/

theorem settle {g g' : ChainProgress L} (h : ChainProgress.InStep b c r R g g') :
    Cycle.InStep w b c r R (Cycle.settle w r g) (Cycle.settle w r g') := by
  cases h with
  | finished failed few h => exact .finished failed few h rfl rfl
  | waiting follows h => exact .waiting follows h

omit [Limiter L] in
theorem settle_created (w : Wiring) (r : ResourceClass) (g : ChainProgress L) :
    (Cycle.settle w r g).1.created = g.created := by
  cases g with
  | finished s st t => exact Cycle.conclude_created w r s st t
  | waiting s st cursor => rfl

/-- Reviews that begin in step. -/
theorem begin (lock : Lockstep w b c r gives Good R)
    (h : R 0 (Cycle.opened r s, Cycle.captured r s) (Cycle.opened r s', Cycle.captured r s'))
    (good : Good (Cycle.begin w b c r s).1.created)
    (good' : Good (Cycle.begin w b c r s').1.created) :
    Cycle.InStep w b c r R (Cycle.begin w b c r s) (Cycle.begin w b c r s') := by
  unfold Cycle.begin at good good' ⊢
  rw [settle_created] at good good'
  exact settle (lock.run c (fun _ hx => hx) rfl (Nat.le_of_eq (Nat.zero_add _)) h good good')

/-- Reviews that get their answers in step. -/
theorem resume (lock : Lockstep w b c r gives Good R) {cursor : Cursor L}
    (follows : cursor.Follows b c r n) (h : R n (s, st) (s', st')) {a a' : Answer}
    (given : gives s s' cursor.pause.request a a')
    (good : Good (Cycle.resume w b r st cursor a s).1.created)
    (good' : Good (Cycle.resume w b r st' cursor a' s').1.created) :
    Cycle.InStep w b c r R (Cycle.resume w b r st cursor a s)
      (Cycle.resume w b r st' cursor a' s') := by
  unfold Cycle.resume at good good' ⊢
  rw [settle_created] at good good'
  exact settle (lock.cursor_resume follows h given good good')

/-- However far a review gets, it only adds to the capacity that was created. -/
theorem begin_created (lock : Lockstep w b c r gives Good R) (s : Site L) :
    s.created <+: (Cycle.begin w b c r s).1.created := by
  unfold Cycle.begin
  rw [settle_created]
  exact lock.run_created c (fun _ hx => hx) {} (Cycle.opened r s) _

theorem resume_created (lock : Lockstep w b c r gives Good R) {cursor : Cursor L}
    (follows : cursor.Follows b c r n) (a : Answer) (s : Site L) (st : ReviewState) :
    s.created <+: (Cycle.resume w b r st cursor a s).1.created := by
  unfold Cycle.resume
  rw [settle_created, Cursor.resume_eq]
  refine .trans ?_ (lock.onward_created follows.rest _ _)
  rw [resume_one _ w b _ _ _ follows.last, follows.resource]
  refine .trans ?_ (lock.visit_created follows.engine _ follows.providers _ _)
  rw [Engine.accept_created]
  exact List.prefix_append _ _

/-- A review that nothing is asked of but to know its class is in step with itself. -/
theorem reflexive (fails : c.OnlyFails) : Lockstep w b c r (fun _ _ _ a a' => a = a')
    (fun _ => True) (fun _ x y => x = y ∧ ∃ d, x.2.Only r d) where
  adds := fails.onlyCreates
  early _ _ := trivial
  keys := by
    rintro n x _ ⟨rfl, d, only⟩
    exact ⟨only.keys, only.keys⟩
  unsatisfied := by
    rintro n x _ ⟨rfl, -⟩
    rfl
  consult := by
    rintro n s st _ _ e p - - ⟨same, d, only⟩
    cases same
    obtain ⟨calls, budget, looked⟩ := e.consult_frame b r p s st
    refine ⟨rfl, rfl, d, ?_⟩
    rw [looked]
    exact only
  ask := by
    rintro n s st _ _ q - ⟨same, d, only⟩
    cases same
    exact ⟨⟨rfl, d, only⟩, rfl, fun a a' given given' => Option.some.inj (given.symm.trans given')⟩
  accept := by
    rintro n s st _ _ q a _ hr ⟨same, d, only⟩ rfl - -
    cases same
    exact ⟨rfl, hr ▸ ReviewState.Only.accept w a s (hr ▸ only)⟩
  custom := by
    rintro n s st _ _ name ordinal apply mem ⟨same, d, only⟩
    cases same
    obtain ⟨e, failed⟩ := fails name ordinal apply mem b s st
    rw [failed]
    exact ⟨rfl, d, only⟩

end Lockstep

/-! ## Every review in a run -/

/-- If the review of the class `r` waits, it knows its class only and is at a place of the chain. -/
def Cycle.Poised (b : Behaviour) (c : Chain L) (r : ResourceClass) : Option (Cycle L) → Prop
  | some (.waiting st cursor) => (∃ d, st.Only r d) ∧ ∃ n, cursor.Follows b c r n
  | _ => True

/-- Every review that waits knows its class only, and its chain is a part of `c`. -/
def System.Poised (b : Behaviour) (c : Chain L) (sys : System L) : Prop :=
  ∀ t r φ, sys.tasks.find? t = some ⟨r, φ⟩ → Cycle.Poised b c r φ.cycle?

theorem System.Poised.quiet (b : Behaviour) (c : Chain L) (s : Site L) :
    System.Poised b c { site := s } := nofun

section Poised

variable [Limiter L] {w : Wiring} {b : Behaviour} {c : Chain L} {r : ResourceClass}

theorem Cycle.InStep.poised {x : Site L × Cycle L} (h : Cycle.InStep w b c r
    (fun _ x y => x = y ∧ ∃ d, x.2.Only r d) x x) : Cycle.Poised b c r (some x.2) := by
  obtain ⟨s, cycle⟩ := x
  cases h with
  | waiting follows h => exact ⟨h.2, _, follows⟩
  | finished failed few h concluded =>
    cases cycle with
    | waiting st cursor => cases concluded
    | finished o => trivial

/-- Whatever a task does, its review stays poised and only adds to the capacity that was created. -/
theorem System.Reviews.poised (fails : c.OnlyFails) {a : Action} {x y : Site L × Option (Cycle L)}
    (h : System.Reviews w b c r a x y) (poised : Cycle.Poised b c r x.2) :
    Cycle.Poised b c r y.2 ∧ x.1.created <+: y.1.created := by
  have lock := Lockstep.reflexive (w := w) (b := b) (r := r) fails
  cases h with
  | still => exact ⟨poised, List.prefix_refl _⟩
  | @begin s s' cycle begun =>
    have inStep := lock.begin (s := s) ⟨rfl, _, .captured r s⟩ trivial trivial
    have created := lock.begin_created s
    rw [begun] at inStep created
    exact ⟨inStep.poised, created⟩
  | @resume s s' cycle t answer st cursor _ resumed =>
    obtain ⟨⟨d, only⟩, n, follows⟩ := poised
    have inStep := lock.resume follows (s := s) ⟨rfl, d, only⟩ (a := answer) rfl
      trivial trivial
    have created := lock.resume_created follows answer s st
    rw [resumed] at inStep created
    exact ⟨inStep.poised, created⟩

variable {sys sys' : System L} {a : Action}

/-- Reviews stay poised. -/
theorem System.Poised.act (h : sys.Poised b c) (fails : c.OnlyFails)
    (acted : sys.act w b c a = some sys') : sys'.Poised b c := by
  intro t r φ found
  by_cases own : a.task? = some t
  · obtain ⟨r', ψ, before⟩ := found_own acted own
    obtain ⟨χ, after, reviews⟩ := act_review acted own before
    cases after.symm.trans found
    exact (reviews.poised fails (h t r _ before)).1
  · rcases found_act acted own found with before | called
    · exact h t r φ before
    · obtain rfl : φ = .called := called
      trivial

/-- Capacity that was created is not forgotten. -/
theorem System.Poised.created (h : sys.Poised b c) (fails : c.OnlyFails)
    (acted : sys.act w b c a = some sys') : sys.site.created <+: sys'.site.created := by
  cases own : a.task? with
  | some t =>
    obtain ⟨r, φ, found⟩ := found_own acted own
    obtain ⟨ψ, -, reviews⟩ := act_review acted own found
    exact (reviews.poised fails (h t r φ found)).2
  | none =>
    have same : sys'.site.created = sys.site.created := by
      cases a with
      | move m =>
        cases acted
        exact m.created_eq sys.site
      | call r =>
        cases acted
        rfl
      | callAll =>
        cases acted
        exact congrArg Site.created (callEach_site _ sys)
      | receive =>
        obtain ⟨⟨q, line⟩, -, rfl⟩ := Option.map_eq_some_iff.1 acted
        rfl
      | step t | answer t _ => cases own
    exact ⟨[], by rw [same, List.append_nil]⟩

theorem Run.poised {terms : Terms} {start : System L} {h : History L}
    (run : Run w b c terms start h sys) (fails : c.OnlyFails) (poised : start.Poised b c) :
    sys.Poised b c := by
  induction run with
  | start => exact poised
  | next _ _ acted ih => exact ih.act fails acted

end Poised

end Muster
