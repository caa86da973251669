import Muster.Proofs.Ordinals
import Muster.Proofs.Reports
import Muster.Proofs.Visits

/-!
# Passes through a chain

A review runs its chain up to the first strategy that completes it. What each strategy leaves behind
is what the next one finds; a strategy that fails is reported in between, and the next one takes
over all the same.

`Chain.Passes` says this of a list of applications, with no word about the loop. Each application is
one strategy at work, which may wait for providers any number of times while others are active.

**Main statements.** `Chain.ends_iff_passes`: what comes of a run of a chain. `Chain.run_passes`:
what comes of the chain of the strategies that were registered.
-/

namespace Muster

variable {L : Type}

/-! ## Strategies at work -/

section AtWork

variable [Limiter L]

/-- What others may do to the site while an engine waits. -/
abbrev Others (L : Type) := Site L → Site L → Prop

/-- What an engine that got this far leaves behind: each request is answered some time, and others
may have been active until then. -/
inductive Progress.Ends (e : Engine) (w : Wiring) (b : Behaviour) (others : Others L) :
    Progress L → Site L × ReviewState → Prop
  | settled {s st} : Ends e w b others (.settled s st) (s, st)
  | waiting {s s' st pause a y} : others s s' →
      Ends e w b others (e.resume w b pause a s' st) y → Ends e w b others (.waiting s st pause) y

/-- What a chain that got this far leaves behind. -/
inductive ChainProgress.Ends (w : Wiring) (b : Behaviour) (others : Others L) :
    ChainProgress L → Site L × ReviewState → Tally → Prop
  | finished {s st t} : Ends w b others (.finished s st t) (s, st) t
  | waiting {s s' st cursor a y t} : others s s' →
      Ends w b others (cursor.resume w b a s' st) y t → Ends w b others (.waiting s st cursor) y t

/-- Whatever the answers are and whatever others do, an engine that got this far comes to an end. -/
inductive Progress.Terminates (e : Engine) (w : Wiring) (b : Behaviour) : Progress L → Prop
  | settled {s st} : Terminates e w b (.settled s st)
  | waiting {s st pause} : (∀ a s', Terminates e w b (e.resume w b pause a s' st)) →
      Terminates e w b (.waiting s st pause)

/-- Whatever the answers are and whatever others do, a chain that got this far comes to an end. -/
inductive ChainProgress.Terminates (w : Wiring) (b : Behaviour) : ChainProgress L → Prop
  | finished {s st t} : Terminates w b (.finished s st t)
  | waiting {s st cursor} : (∀ a s', Terminates w b (cursor.resume w b a s' st)) →
      Terminates w b (.waiting s st cursor)

/-- A strategy finds the site and the state of the review as in `x`, says `result` and leaves `y`
behind. An engine always lets the chain go on. -/
inductive Strategy.Applies (w : Wiring) (b : Behaviour) (others : Others L)
    (x : Site L × ReviewState) : Strategy L → Except StrategyError Decision →
      Site L × ReviewState → Prop
  | engine {e y} : (e.start w b x.1 x.2).Ends e w b others y →
      Applies w b others x (.engine e) (.ok .proceed) y
  | fallback : Applies w b others x .fallback (.ok .complete) x
  | custom {name ordinal apply} : Applies w b others x (.custom name ordinal apply)
      (apply b x.1 x.2).1 (apply b x.1 x.2).2

end AtWork

/-! ## Passes -/

/-- What came of the work of a strategy. -/
structure Application (L : Type) where
  strategy : Strategy L
  found : Site L × ReviewState
  result : Except StrategyError Decision
  left : Site L × ReviewState

namespace Application

variable (a : Application L)

/-- No later strategy is applied. -/
def completes : Bool :=
  match a.result with
  | .ok .complete => true
  | _ => false

/-- The event that reports a failure. -/
def report? : Option Event :=
  match a.result with
  | .ok _ => none
  | .error e => some (.strategyFailed a.left.2.review a.strategy.name e.message)

/-- What the next strategy finds: a failure has been reported, once. -/
def handed (w : Wiring) : Site L × ReviewState :=
  match a.report? with
  | none => a.left
  | some e => (a.left.1.emit w e, a.left.2)

end Application

/-- The applications, from `x` to `y`: each strategy finds what the one before has handed on. -/
inductive Threads (w : Wiring) :
    Site L × ReviewState → List (Application L) → Site L × ReviewState → Prop
  | nil {x} : Threads w x [] x
  | cons {a done y} : Threads w (a.handed w) done y → Threads w a.found (a :: done) y

theorem Threads.of_nil {w : Wiring} {x y : Site L × ReviewState} (h : Threads w x [] y) :
    y = x := by
  cases h
  rfl

/-- The strategy is applied to what it finds, which is `x`. -/
structure Application.Opens [Limiter L] (w : Wiring) (b : Behaviour) (others : Others L)
    (strategy : Strategy L) (x : Site L × ReviewState) (a : Application L) : Prop where
  strategy : a.strategy = strategy
  found : a.found = x
  applies : a.strategy.Applies w b others a.found a.result a.left

/-- The applications of a review that runs the chain. -/
structure Chain.Passes [Limiter L] (w : Wiring) (b : Behaviour) (others : Others L) (c : Chain L)
    (x : Site L × ReviewState) (done : List (Application L)) (y : Site L × ReviewState) :
    Prop where
  applied : ∀ a ∈ done, a.strategy.Applies w b others a.found a.result a.left
  threaded : Threads w x done y
  order : done.map (·.strategy) <+: c
  /-- Nobody but the last completes the chain. -/
  going : ∀ a ∈ done.dropLast, a.completes = false
  /-- The chain is exhausted unless the last one completes it. -/
  ends : done.map (·.strategy) = c ∨ ∃ a, done.getLast? = some a ∧ a.completes = true

/-- The tally of applications. -/
def Tally.of (done : List (Application L)) : Tally where
  run := UInt32.ofNat done.length
  failed := UInt32.ofNat (done.countP (·.report?.isSome))
  completedBy := (done.find? (·.completes)).map (·.strategy.name)

/-! ## One strategy of a pass -/

/-- The tally with one application more. -/
def Tally.count (t : Tally) (a : Application L) : Tally where
  run := t.run + 1
  failed := if a.report?.isSome then t.failed + 1 else t.failed
  completedBy := if a.completes then some a.strategy.name else t.completedBy

namespace Chain

section Steps

variable [Limiter L] {w : Wiring} {b : Behaviour} {others : Others L} {c : Chain L}
  {x y : Site L × ReviewState} {done : List (Application L)} {strategy : Strategy L}

theorem passes_nil : Passes w b others ([] : Chain L) x done y ↔ done = [] ∧ y = x := by
  constructor
  · rintro ⟨-, threaded, order, -, -⟩
    obtain rfl := List.map_eq_nil_iff.1 (List.prefix_nil.1 order)
    cases threaded
    exact ⟨rfl, rfl⟩
  · rintro ⟨rfl, rfl⟩
    exact ⟨fun _ mem => absurd mem List.not_mem_nil, .nil, List.prefix_refl _,
      fun _ mem => absurd mem List.not_mem_nil, .inl rfl⟩

theorem not_passes_cons_nil : ¬ Passes w b others (strategy :: c) x [] y := by
  rintro ⟨-, -, -, -, whole | ⟨a, last, -⟩⟩
  · cases whole
  · cases last

/-- A pass ends with a first strategy that completes the chain. -/
theorem passes_cons_of_completes {a : Application L} (completes : a.completes = true) :
    Passes w b others (strategy :: c) x (a :: done) y ↔
      a.Opens w b others strategy x ∧ done = [] ∧ y = a.handed w := by
  constructor
  · rintro ⟨applied, threaded, order, going, -⟩
    cases threaded with
    | cons threaded =>
    obtain ⟨rfl, -⟩ := List.cons_prefix_cons.1 order
    refine ⟨⟨rfl, rfl, applied a List.mem_cons_self⟩, ?_⟩
    cases done with
    | nil => exact ⟨rfl, threaded.of_nil⟩
    | cons => cases completes.symm.trans (going a List.mem_cons_self)
  · rintro ⟨⟨rfl, rfl, applies⟩, rfl, rfl⟩
    refine ⟨fun a' mem => ?_, .cons .nil, ?_, fun a' mem => absurd mem List.not_mem_nil,
      .inr ⟨a, rfl, completes⟩⟩
    · cases List.mem_singleton.1 mem
      exact applies
    · exact List.cons_prefix_cons.2 ⟨rfl, List.nil_prefix⟩

/-- Another pass follows a first strategy that does not complete the chain. -/
theorem passes_cons_of_going {a : Application L} (goes : a.completes = false) :
    Passes w b others (strategy :: c) x (a :: done) y ↔
      a.Opens w b others strategy x ∧ Passes w b others c (a.handed w) done y := by
  have going_cons : (∀ a' ∈ (a :: done).dropLast, a'.completes = false) ↔
      ∀ a' ∈ done.dropLast, a'.completes = false := by
    cases done with
    | nil => rfl
    | cons => rw [List.dropLast_cons_cons, List.forall_mem_cons, and_iff_right goes]
  constructor
  · rintro ⟨applied, threaded, order, going, ends⟩
    cases threaded with
    | cons threaded =>
    obtain ⟨rfl, later⟩ := List.cons_prefix_cons.1 order
    refine ⟨⟨rfl, rfl, applied a List.mem_cons_self⟩,
      fun a' mem => applied a' (List.mem_cons_of_mem _ mem), threaded, later, going_cons.1 going, ?_⟩
    rcases ends with whole | ⟨last, is_last, completes⟩
    · exact .inl (List.cons.inj whole).2
    · cases done with
      | nil =>
        cases is_last
        cases goes.symm.trans completes
      | cons => exact .inr ⟨last, is_last, completes⟩
  · rintro ⟨⟨rfl, rfl, applies⟩, applied, threaded, order, going, ends⟩
    refine ⟨List.forall_mem_cons.2 ⟨applies, applied⟩, .cons threaded,
      List.cons_prefix_cons.2 ⟨rfl, order⟩, going_cons.2 going, ?_⟩
    rcases ends with whole | ⟨last, is_last, completes⟩
    · exact .inl (congrArg _ whole)
    · refine .inr ⟨last, ?_, completes⟩
      rw [List.getLast?_cons, is_last]
      rfl

/-- A chain goes on after an engine once that has come to its end. -/
theorem onward_ends {e : Engine} {g : Progress L} {t t' : Tally} :
    (g.onward w b e c t).Ends w b others y t' ↔
      ∃ z, g.Ends e w b others z ∧ (run w b c t z.1 z.2).Ends w b others y t' := by
  constructor
  · intro ends
    -- By induction on the end: as long as the engine is at work, the chain waits where it waits.
    generalize same : g.onward w b e c t = G at ends
    induction ends generalizing g with
    | finished =>
      cases g with
      | settled s st =>
        refine ⟨(s, st), .settled, ?_⟩
        rw [show run w b c t s st = _ from same]
        exact .finished
      | waiting => cases same
    | waiting active ends ih =>
      cases g with
      | settled s st =>
        refine ⟨(s, st), .settled, ?_⟩
        rw [show run w b c t s st = _ from same]
        exact .waiting active ends
      | waiting s st pause =>
        cases same
        obtain ⟨z, settles, ran⟩ := ih (Cursor.resume_eq w b ⟨e, pause, c, t⟩ _ _ _).symm
        exact ⟨z, .waiting active settles, ran⟩
  · rintro ⟨z, settles, ran⟩
    induction settles with
    | settled => exact ran
    | @waiting s s' st pause a y active _ ih =>
      refine .waiting active (a := a) ?_
      rw [Cursor.resume_eq]
      exact ih ran

theorem finished_ends {s : Site L} {st : ReviewState} {t t' : Tally} :
    (ChainProgress.finished s st t).Ends w b others y t' ↔ y = (s, st) ∧ t' = t := by
  constructor
  · intro ends
    cases ends
    exact ⟨rfl, rfl⟩
  · rintro ⟨rfl, rfl⟩
    exact .finished

theorem applies_custom {name : String} {ordinal : Int}
    {apply : Behaviour → Site L → ReviewState →
      Except StrategyError Decision × Site L × ReviewState}
    {result : Except StrategyError Decision} :
    Strategy.Applies w b others x (.custom name ordinal apply) result y ↔
      apply b x.1 x.2 = (result, y) := by
  constructor
  · rintro ⟨⟩
    rfl
  · intro acted
    have applies : Strategy.Applies w b others x (.custom name ordinal apply) _ _ := .custom
    rw [acted] at applies
    exact applies

/-- A run of a chain applies the first strategy and, unless that completes the chain, runs the
others. -/
theorem run_cons_ends {t t' : Tally} :
    (run w b (strategy :: c) t x.1 x.2).Ends w b others y t' ↔
      ∃ result left, strategy.Applies w b others x result left ∧
        let a : Application L := ⟨strategy, x, result, left⟩
        match a.completes with
        | true => y = a.handed w ∧ t' = t.count a
        | false => (run w b c (t.count a) (a.handed w).1 (a.handed w).2).Ends w b others y t' := by
  cases strategy with
  | engine e =>
    rw [run_engine, onward_ends]
    constructor
    · rintro ⟨z, settles, ran⟩
      exact ⟨.ok .proceed, z, .engine settles, ran⟩
    · rintro ⟨result, z, ⟨settles⟩, ran⟩
      exact ⟨z, settles, ran⟩
  | fallback =>
    rw [run, finished_ends]
    constructor
    · intro ended
      exact ⟨.ok .complete, x, .fallback, ended⟩
    · rintro ⟨result, z, ⟨⟩, ended⟩
      exact ended
  | custom name ordinal apply =>
    simp only [applies_custom, run]
    rcases apply b x.1 x.2 with ⟨result, s, st⟩
    have only : ∀ P : Except StrategyError Decision → Site L × ReviewState → Prop,
        (∃ result' left, (result, s, st) = (result', left) ∧ P result' left) ↔
          P result (s, st) := by
      intro P
      constructor
      · rintro ⟨_, _, ⟨⟩, h⟩
        exact h
      · intro h
        exact ⟨_, _, rfl, h⟩
    rw [only]
    cases result with
    | error e => exact Iff.rfl
    | ok d =>
      cases d with
      | proceed => exact Iff.rfl
      | complete => exact finished_ends

/-! ## Runs and passes -/

/-- What comes of a run of a chain is what comes of a pass through it. -/
theorem ends_iff_passes {t t' : Tally} : (run w b c t x.1 x.2).Ends w b others y t' ↔
    ∃ done, Passes w b others c x done y ∧ t' = done.foldl Tally.count t := by
  induction c generalizing x t with
  | nil =>
    rw [run, finished_ends]
    constructor
    · rintro ⟨rfl, rfl⟩
      exact ⟨[], passes_nil.2 ⟨rfl, rfl⟩, rfl⟩
    · rintro ⟨done, passes, rfl⟩
      obtain ⟨rfl, rfl⟩ := passes_nil.1 passes
      exact ⟨rfl, rfl⟩
  | cons strategy c ih =>
    rw [run_cons_ends]
    constructor
    · rintro ⟨result, left, applies, rest⟩
      have opens : (Application.mk strategy x result left).Opens w b others strategy x :=
        ⟨rfl, rfl, applies⟩
      simp only at rest
      split at rest
      · rename_i completes
        obtain ⟨rfl, rfl⟩ := rest
        exact ⟨[_], (passes_cons_of_completes completes).2 ⟨opens, rfl, rfl⟩, rfl⟩
      · rename_i goes
        obtain ⟨done, passes, rfl⟩ := ih.1 rest
        exact ⟨_ :: done, (passes_cons_of_going goes).2 ⟨opens, passes⟩, rfl⟩
    · rintro ⟨done, passes, rfl⟩
      cases done with
      | nil => exact absurd passes not_passes_cons_nil
      | cons a done =>
        cases completes : a.completes with
        | true =>
          obtain ⟨⟨rfl, rfl, applies⟩, rfl, rfl⟩ := (passes_cons_of_completes completes).1 passes
          refine ⟨a.result, a.left, applies, ?_⟩
          simp [completes]
        | false =>
          obtain ⟨⟨rfl, rfl, applies⟩, rest⟩ := (passes_cons_of_going completes).1 passes
          refine ⟨a.result, a.left, applies, ?_⟩
          simp only [completes]
          exact ih.2 ⟨done, rest, rfl⟩

/-- The tally of a pass counts its applications. -/
theorem Passes.tally_eq (h : Passes w b others c x done y) (t : Tally) :
    done.foldl Tally.count t = {
      run := t.run + (Tally.of done).run
      failed := t.failed + (Tally.of done).failed
      completedBy := (Tally.of done).completedBy.or t.completedBy } := by
  induction c generalizing x done t with
  | nil =>
    obtain ⟨rfl, -⟩ := passes_nil.1 h
    simp [Tally.of]
  | cons strategy c ih =>
    cases done with
    | nil => exact absurd h not_passes_cons_nil
    | cons a done =>
      have first : t.count a = {
          run := t.run + 1
          failed := t.failed + if a.report?.isSome then 1 else 0
          completedBy := if a.completes then some a.strategy.name else t.completedBy } := by
        simp only [Tally.count]
        split <;> simp
      have run : (Tally.of (a :: done)).run = 1 + (Tally.of done).run := by
        simp only [Tally.of, List.length_cons, UInt32.ofNat_add]
        exact UInt32.add_comm _ _
      have failed : (Tally.of (a :: done)).failed =
          (if a.report?.isSome then 1 else 0) + (Tally.of done).failed := by
        simp only [Tally.of, List.countP_cons, UInt32.ofNat_add]
        rw [UInt32.add_comm]
        split <;> rfl
      rw [List.foldl_cons, first, run, failed, ← UInt32.add_assoc, ← UInt32.add_assoc]
      cases completes : a.completes with
      | true =>
        obtain ⟨-, rfl, -⟩ := (passes_cons_of_completes completes).1 h
        simp [Tally.of, completes]
      | false =>
        rw [ih ((passes_cons_of_going completes).1 h).2]
        simp [Tally.of, completes]

theorem applies_fallback {result : Except StrategyError Decision}
    (h : Strategy.Applies w b others x .fallback result y) : result = .ok .complete := by
  cases h
  rfl

/-- A strategy of the chain is applied unless one before it completes the chain. -/
theorem Passes.reaches (h : Passes w b others c x done y) {before after : Chain L}
    (split : c = before ++ strategy :: after) : before ++ [strategy] <+: done.map (·.strategy) ∨
      ∃ a ∈ done, a.completes = true ∧ a.strategy ∈ before := by
  have here : before ++ [strategy] <+: c := by
    rw [split]
    exact (List.prefix_append_right_inj before).2 (List.cons_prefix_cons.2 ⟨rfl, List.nil_prefix⟩)
  rcases h.ends with whole | ⟨a, last, completes⟩
  · rw [whole]
    exact .inl here
  · have mem : a ∈ done := List.mem_of_getLast? last
    rcases Nat.lt_or_ge before.length done.length with far | near
    · refine .inl (List.prefix_of_prefix_length_le here h.order ?_)
      rw [List.length_append, List.length_map]
      exact far
    · have early : done.map (·.strategy) <+: before := by
        refine List.prefix_of_prefix_length_le h.order ?_ ?_
        · rw [split]
          exact List.prefix_append _ _
        · rw [List.length_map]
          exact near
      exact .inr ⟨a, mem, completes, early.subset (List.mem_map_of_mem mem)⟩

/-- With the fallback in the chain, somebody completes it. -/
theorem Passes.completed (h : Passes w b others c x done y) (mem : .fallback ∈ c) :
    (Tally.of done).completedBy.isSome = true := by
  obtain ⟨a, mem, completes⟩ : ∃ a ∈ done, a.completes = true := by
    rcases h.ends with whole | ⟨a, last, completes⟩
    · rw [← whole] at mem
      obtain ⟨a, mem, same⟩ := List.mem_map.1 mem
      have applied := h.applied a mem
      rw [same] at applied
      refine ⟨a, mem, ?_⟩
      rw [Application.completes, applies_fallback applied]
    · exact ⟨a, List.mem_of_getLast? last, completes⟩
  rw [Tally.of, Option.isSome_map, List.find?_isSome]
  exact ⟨a, mem, completes⟩

/-- What comes of a pass with the fallback in the chain. -/
structure FallsBack (c : Chain L) (done : List (Application L)) : Prop where
  completed : (Tally.of done).completedBy.isSome = true
  /-- A strategy with a smaller ordinal than the fallback's is applied unless one before it, which
  is not the fallback either, completes the chain. -/
  reaches : ∀ before strategy after, c = before ++ strategy :: after →
    strategy.ordinal < 2147483647 → before ++ [strategy] <+: done.map (·.strategy) ∨
      ∃ a ∈ done, a.completes = true ∧ a.strategy ∈ before ∧ a.strategy ≠ .fallback

theorem Passes.fallsBack (h : Passes w b others c x done y)
    (ascending : c.Pairwise (·.ordinal ≤ ·.ordinal)) (mem : .fallback ∈ c) : c.FallsBack done := by
  refine ⟨h.completed mem, fun before strategy after split less => ?_⟩
  rcases h.reaches split with reached | ⟨a, mem, completes, early⟩
  · exact .inl reached
  · refine .inr ⟨a, mem, completes, early, fun same => ?_⟩
    rw [split, List.pairwise_append] at ascending
    have le := ascending.2.2 _ early strategy List.mem_cons_self
    rw [same] at le
    exact Int.not_le.2 less le

end Steps

end Chain

/-! ## Chains come to an end -/

section Ending

variable [Limiter L] {w : Wiring} {b : Behaviour}

namespace Engine

variable {e : Engine}

/-- A visit to fewer providers is left after each answer. -/
theorem visit_terminates {later : List ResourceClass}
    (next : ∀ s st, (e.visitClasses w b later s st : Progress L).Terminates e w b)
    (r : ResourceClass) (ps : Registry) (s : Site L) (st : ReviewState) :
    ((e.visit w b r later ps s st).further e w b later).Terminates e w b := by
  induction ps generalizing s st with
  | nil => exact next s st
  | cons p rest ih =>
    simp only [visit]
    by_cases covered : st.unsatisfied r = 0
    · rw [if_pos covered]
      exact next s st
    rw [if_neg covered]
    rcases e.consult b r p s st with ⟨units, s₁, st₁⟩
    by_cases none : units = 0
    · simp only [if_pos none]
      exact ih s₁ st₁
    simp only [if_neg none]
    rcases s₁.askCapacity b (some st₁.review) ⟨p, r, units⟩ with ⟨answer, s₂⟩
    cases answer with
    | none =>
      refine .waiting fun a s' => ?_
      rw [resume_further]
      exact ih _ _
    | some a => exact ih _ _

theorem visitClasses_terminates (rs : List ResourceClass) (s : Site L) (st : ReviewState) :
    (e.visitClasses w b rs s st).Terminates e w b := by
  induction rs generalizing s st with
  | nil => exact .settled
  | cons r later ih =>
    rw [visitClasses_cons]
    exact visit_terminates ih r e.providers s st

theorem start_terminates (s : Site L) (st : ReviewState) :
    (e.start w b s st).Terminates e w b := by
  rw [start]
  split
  · exact visitClasses_terminates _ s st
  · exact .settled

end Engine

theorem Chain.onward_terminates {e : Engine} {c : Chain L} {t : Tally} {g : Progress L}
    (ends : g.Terminates e w b) (next : ∀ s st, (c.run w b t s st).Terminates w b) :
    (g.onward w b e c t).Terminates w b := by
  induction ends with
  | settled => exact next _ _
  | waiting _ ih =>
    refine .waiting fun a s' => ?_
    rw [Cursor.resume_eq]
    exact ih a s'

theorem Chain.run_terminates (c : Chain L) (t : Tally) (s : Site L) (st : ReviewState) :
    (c.run w b t s st).Terminates w b := by
  induction c generalizing t s st with
  | nil => exact .finished
  | cons strategy c ih =>
    cases strategy with
    | engine e =>
      rw [run_engine]
      exact onward_terminates (e.start_terminates s st) (ih _)
    | fallback => exact .finished
    | custom name ordinal apply =>
      simp only [run]
      split
      · exact ih _ _ _
      · exact .finished
      · exact ih _ _ _

end Ending

/-! ## Failures are reported -/

/-- The failures of strategies that a review has reported, oldest first. -/
def Site.failures (s : Site L) (review : ReviewId) : List Event :=
  (s.reports review).filter Event.isFailure

theorem Site.failures_emit (w : Wiring) (s : Site L) (review : ReviewId) {e : Event}
    (other : e.isFailure = false) : (s.emit w e).failures review = s.failures review := by
  simp only [emit]
  split
  · simp [failures, reports, List.filter_append, other]
  · rfl
  · rfl

theorem Site.failures_report {w : Wiring} (sink : w.sink = .recording) (s : Site L)
    (review : ReviewId) (name reason : String) :
    (s.emit w (.strategyFailed review name reason)).failures review =
      s.failures review ++ [.strategyFailed review name reason] := by
  rw [emit_recording sink]
  simp [failures, reports, Event.isFailure, Event.review?]

/-- On the way from `x` to `y`, no failure of a strategy is reported on behalf of the review, and
the state stays one of the same review. -/
structure Quiet (review : ReviewId) (x y : Site L × ReviewState) : Prop where
  failures : y.1.failures review = x.1.failures review
  review : y.2.review = x.2.review

theorem Quiet.refl (review : ReviewId) (x : Site L × ReviewState) : Quiet review x x := ⟨rfl, rfl⟩

theorem Quiet.trans {review : ReviewId} {x y z : Site L × ReviewState} (h : Quiet review x y)
    (h' : Quiet review y z) : Quiet review x z :=
  ⟨h'.failures.trans h.failures, h'.review.trans h.review⟩

/-- How far an engine got. -/
def Progress.reached : Progress L → Site L × ReviewState
  | .settled s st | .waiting s st _ => (s, st)

namespace Engine

variable [Limiter L] {e : Engine} {w : Wiring} {b : Behaviour} {review : ReviewId}

theorem consult_quiet (r : ResourceClass) (p : Provider) (s : Site L) (st : ReviewState) :
    Quiet review (s, st) (e.consult b r p s st).2 := by
  obtain ⟨calls, budget, same⟩ := e.consult_frame b r p s st
  rw [same]
  exact ⟨rfl, rfl⟩

theorem accept_quiet (q : Request) (a : Answer) (s : Site L) (st : ReviewState) :
    Quiet review (s, st) (accept w q a s st) := by
  cases a with
  | error e => exact ⟨Site.failures_emit w s review rfl, rfl⟩
  | ok planned =>
    simp only [accept]
    split
    · exact ⟨rfl, rfl⟩
    · refine ⟨(Site.failures_emit w _ review rfl).trans ?_,
        ReviewState.review_recordPlanned ..⟩
      obtain ⟨queue, links, same⟩ := Site.tracks_frame w
        (st.recordPlanned q.resource q.provider.id planned).1 { s with
          created := s.created ++ planned
          limiter := planned.foldl register s.limiter }
      rw [same]
      rfl

/-- An engine reports no failures of strategies. -/
theorem visit_quiet (r : ResourceClass) (later : List ResourceClass) (ps : Registry) (s : Site L)
    (st : ReviewState) : Quiet review (s, st) (e.visit w b r later ps s st).reached := by
  induction ps generalizing s st with
  | nil => exact .refl _ _
  | cons p rest ih =>
    have consulted : Quiet review (s, st) _ := consult_quiet (e := e) (b := b) r p s st
    simp only [visit]
    by_cases covered : st.unsatisfied r = 0
    · rw [if_pos covered]
      exact .refl _ _
    rw [if_neg covered]
    revert consulted
    rcases e.consult b r p s st with ⟨units, s₁, st₁⟩
    intro consulted
    by_cases none : units = 0
    · simp only [if_pos none]
      exact consulted.trans (ih s₁ st₁)
    simp only [if_neg none]
    have asked : Quiet review (s, st)
        ((s₁.askCapacity b (some st₁.review) ⟨p, r, units⟩).2, st₁) :=
      consulted.trans ⟨rfl, rfl⟩
    revert asked
    rcases s₁.askCapacity b (some st₁.review) ⟨p, r, units⟩ with ⟨answer, s₂⟩
    intro asked
    cases answer with
    | none => exact asked
    | some a => exact (asked.trans (accept_quiet ⟨p, r, units⟩ a s₂ st₁)).trans (ih _ _)

theorem further_quiet {later : List ResourceClass} {x : Site L × ReviewState} {g : Progress L}
    (next : ∀ (s : Site L) st, Quiet review (s, st) (e.visitClasses w b later s st).reached)
    (h : Quiet review x g.reached) : Quiet review x (g.further e w b later).reached := by
  cases g with
  | settled s st => exact h.trans (next s st)
  | waiting s st pause => exact h

theorem visitClasses_quiet (rs : List ResourceClass) (s : Site L) (st : ReviewState) :
    Quiet review (s, st) (e.visitClasses w b rs s st).reached := by
  induction rs generalizing s st with
  | nil => exact .refl _ _
  | cons r later ih =>
    rw [visitClasses_cons]
    exact further_quiet ih (visit_quiet r later e.providers s st)

theorem start_quiet (s : Site L) (st : ReviewState) :
    Quiet review (s, st) (e.start w b s st).reached := by
  rw [start]
  split
  · exact visitClasses_quiet _ s st
  · exact .refl _ _

theorem resume_quiet (pause : Pause) (a : Answer) (s : Site L) (st : ReviewState) :
    Quiet review (s, st) (e.resume w b pause a s st).reached := by
  rw [resume_further]
  exact (accept_quiet pause.request a s st).trans
    (further_quiet (visitClasses_quiet _) (visit_quiet _ _ _ _ _))

end Engine

section Reporting

variable [Limiter L] {w : Wiring} {b : Behaviour} {others : Others L} {c : Chain L}
  {review : ReviewId} {x y : Site L × ReviewState} {done : List (Application L)}

/-- No failure of a strategy is reported on behalf of the review by others or by strategies of the
host themselves. -/
structure Chain.Discreet (b : Behaviour) (others : Others L) (c : Chain L) (review : ReviewId) :
    Prop where
  others : ∀ s s', others s s' → s'.failures review = s.failures review
  custom : ∀ name ordinal apply, .custom name ordinal apply ∈ c → ∀ s st, st.review = review →
    Quiet review (s, st) (apply b s st).2

theorem Progress.Ends.quiet {e : Engine} {g : Progress L} (ends : g.Ends e w b others y)
    (discreet : ∀ s s', others s s' → s'.failures review = s.failures review) :
    Quiet review g.reached y := by
  induction ends with
  | settled => exact .refl _ _
  | @waiting s s' st pause a y active _ ih =>
    have meanwhile : Quiet review (s, st) (s', st) := ⟨discreet s s' active, rfl⟩
    exact (meanwhile.trans (Engine.resume_quiet pause a s' st)).trans ih

theorem Chain.Discreet.applies (h : c.Discreet b others review) {strategy : Strategy L}
    (mem : strategy ∈ c) (own : x.2.review = review) {result : Except StrategyError Decision}
    (applies : strategy.Applies w b others x result y) : Quiet review x y := by
  cases applies with
  | engine ends => exact (Engine.start_quiet x.1 x.2).trans (ends.quiet h.others)
  | fallback => exact .refl _ _
  | custom => exact h.custom _ _ _ mem x.1 x.2 own

omit [Limiter L] in
theorem Application.review_handed (a : Application L) (w : Wiring) :
    (a.handed w).2 = a.left.2 := by
  rw [handed]
  split <;> rfl

omit [Limiter L] in
/-- A failure is reported once. -/
theorem Application.failures_handed (a : Application L) (sink : w.sink = .recording)
    (own : a.left.2.review = review) :
    (a.handed w).1.failures review = a.left.1.failures review ++ a.report?.toList := by
  cases said : a.result with
  | ok d =>
    simp only [handed, report?, said]
    exact (List.append_nil _).symm
  | error e =>
    simp only [handed, report?, said, own]
    exact Site.failures_report sink _ _ _ _

/-- The failures that a pass reports are those of its applications. -/
theorem Chain.Passes.failures_eq (h : c.Passes w b others x done y) (sink : w.sink = .recording)
    (discreet : c.Discreet b others review) (own : x.2.review = review) :
    y.1.failures review = x.1.failures review ++ done.filterMap (·.report?) := by
  have listed : ∀ a ∈ done, a.strategy ∈ c := fun a mem =>
    h.order.subset (List.mem_map_of_mem mem)
  have applied := h.applied
  have threaded := h.threaded
  clear h
  induction threaded with
  | nil => exact (List.append_nil _).symm
  | @cons a done y _ ih =>
    have quiet := discreet.applies (listed a List.mem_cons_self) own (applied a List.mem_cons_self)
    have left := quiet.review.trans own
    have rest := ih ((congrArg _ (a.review_handed w)).trans left)
      (fun a mem => listed a (List.mem_cons_of_mem _ mem))
      (fun a mem => applied a (List.mem_cons_of_mem _ mem))
    rw [rest, a.failures_handed sink left, quiet.failures, List.append_assoc]
    refine congrArg _ ?_
    rw [List.filterMap_cons]
    cases a.report? <;> rfl

end Reporting

/-! ## Runs of the chain -/

variable [Limiter L]

/-- The chain of the strategies that were registered is their stable sort. A run of it comes to an
end, whatever the strategies do, and applies the strategies up to the first that completes the
chain; each finds what the one before has handed on, and the tally counts them. Failures are
reported one by one, as long as nobody else reports any on behalf of the review. With the fallback
registered, somebody completes the chain, and no strategy of a smaller ordinal is left out
before. -/
theorem Chain.run_passes (strategies : List (Strategy L)) (w : Wiring) (b : Behaviour)
    (others : Others L) (s : Site L) (st : ReviewState) :
    let c := Chain.ofList strategies
    c.Sorts strategies ∧ (c.run w b {} s st).Terminates w b ∧
    (∀ y t, (c.run w b {} s st).Ends w b others y t ↔
      ∃ done, c.Passes w b others (s, st) done y ∧ t = Tally.of done) ∧
    ∀ done y, c.Passes w b others (s, st) done y →
      (w.sink = .recording → c.Discreet b others st.review →
        y.1.failures st.review = s.failures st.review ++ done.filterMap (·.report?)) ∧
      (.fallback ∈ strategies → c.FallsBack done) := by
  intro c
  have sorts : c.Sorts strategies := sorts_ofList strategies
  refine ⟨sorts, run_terminates c {} s st, fun y t => ?_, fun done y passes => ⟨?_, ?_⟩⟩
  · refine (ends_iff_passes (x := (s, st))).trans (exists_congr fun done => ?_)
    refine and_congr_right fun passes => ?_
    rw [passes.tally_eq {}]
    simp
  · exact fun sink discreet => passes.failures_eq sink discreet rfl
  · exact fun mem => passes.fallsBack sorts.ascending (sorts.mem_iff.2 mem)

omit [Limiter L] in
theorem Chain.OnlyFails.discreet {c : Chain L} (h : c.OnlyFails) (b : Behaviour)
    (review : ReviewId) : c.Discreet b Eq review where
  others _ _ same := congrArg (Site.failures · review) same.symm
  custom name ordinal apply mem s st _ := by
    obtain ⟨e, failed⟩ := h name ordinal apply mem b s st
    rw [failed]
    exact .refl _ _

/-- Strategies are registered last first. One fails, an engine waits for a provider that refuses in
the end, and the fallback completes the chain. -/
theorem Chain.run_passes_of_sample : ∃ y t done,
    (Sample.guarded.run Sample.wiring Sample.behaviour {} Sample.busy
      (Cycle.captured .unlabeled Sample.busy)).Ends Sample.wiring Sample.behaviour Eq y t ∧
    Sample.guarded.Sorts Sample.guarded.reverse ∧ t = ⟨3, 1, some "fallback"⟩ ∧
    Sample.guarded.Passes Sample.wiring Sample.behaviour Eq
      (Sample.busy, Cycle.captured .unlabeled Sample.busy) done y ∧
    Sample.busy.failures (.fresh 0) ++ done.filterMap (·.report?) =
      [.strategyFailed (.fresh 0) "forecast" "strategy failed: no data"] ∧
    Sample.guarded.FallsBack done := by
  obtain ⟨s₁, st₁, cursor, waits, s₂, st₂, settled, told⟩ : ∃ s₁ st₁ cursor,
      Sample.guarded.run Sample.wiring Sample.behaviour {} Sample.busy
        (Cycle.captured .unlabeled Sample.busy) = .waiting s₁ st₁ cursor ∧
      ∃ s₂ st₂, cursor.resume Sample.wiring Sample.behaviour (.error (.provision "full")) s₁ st₁ =
        .finished s₂ st₂ ⟨3, 1, some "fallback"⟩ ∧
      s₂.failures (.fresh 0) = [.strategyFailed (.fresh 0) "forecast" "strategy failed: no data"] :=
    ⟨_, _, _, rfl, _, _, rfl, rfl⟩
  have ended : (Sample.guarded.run Sample.wiring Sample.behaviour {} Sample.busy
      (Cycle.captured .unlabeled Sample.busy)).Ends Sample.wiring Sample.behaviour Eq (s₂, st₂)
        ⟨3, 1, some "fallback"⟩ := by
    rw [waits]
    refine .waiting rfl (a := .error (.provision "full")) ?_
    rw [settled]
    exact .finished
  have sorted : Chain.ofList Sample.guarded.reverse = Sample.guarded := rfl
  obtain ⟨sorts, -, ends, passes⟩ := Chain.run_passes Sample.guarded.reverse Sample.wiring
    Sample.behaviour Eq Sample.busy (Cycle.captured .unlabeled Sample.busy)
  rw [sorted] at sorts ends passes
  obtain ⟨done, pass, counted⟩ := (ends _ _).1 ended
  obtain ⟨reports, falls⟩ := passes done _ pass
  have own := reports rfl (Sample.guarded_onlyFails.discreet _ _)
  have registered : Strategy.fallback ∈ Sample.guarded.reverse := List.mem_cons_self
  exact ⟨_, _, done, ended, sorts, rfl, pass, own.symm.trans told, falls registered⟩

end Muster
