import Muster.Host.Clock

/-!
# Shutdown

Both loops in the background take in one signal after the other, and between two of them anything
may happen to the host. Two signals should make a loop leave: the shutdown flag was set to true, and
it will not be set any more.

**Runs** (`Hears`). A loop that waits takes in any signal that is there (`Takes`), whichever the
turns of the clock would give it first. What it does about it is read off the host (`deeds`): the
jobs that were added and the items that came in.

**What the loops heed.** The worker leaves at the first signal that should make it leave. The load
generator leaves at the first setting to true only. It looks at the flag whenever something happens
to it, so that the sender going away tells it nothing: none of the settings it has seen was true
(`ShutdownFlag.Passed`), and there will be no other.

**Turns.** The turn that the clock gives to a loop is a run, after which a worker that has stopped
clears up and a load generator without a sender gets stuck (`Settles`). What has left its loop stays
so for as long as time moves, and starts nothing any more (`Rests`).

**Main statement.** `BackgroundLoop.leaves_on_stop`.
-/

namespace Muster

/-! ## Signals -/

/-- Whether a loop should leave on a signal. -/
def Signal.stops : Signal → Bool
  | .shutdown value => value
  | .senderGone => true
  | .tick | .request _ | .requestsClosed | .reviewEnded => false

/-- A loop that was told `signals` took in nothing after a signal of a kind, and left if and only if
there was one. -/
structure LeavesAt (kind : Signal → Bool) (signals : List Signal) (left : Prop) : Prop where
  last : ∀ s ∈ signals.dropLast, kind s = false
  left_iff : left ↔ ∃ s ∈ signals, kind s = true

/-! ## The flag -/

namespace ShutdownFlag

variable {f f' f'' : ShutdownFlag} {seen : Nat} {s : Signal}

/-- What may become of the flag: it is set, more than once perhaps, or will not be set any more. -/
structure Later (f f' : ShutdownFlag) : Prop where
  version : f.version ≤ f'.version
  value : f'.version = f.version → f'.value = f.value
  gone : f.senderGone = true → f' = f

theorem Later.refl (f : ShutdownFlag) : f.Later f := ⟨Nat.le_refl _, fun _ => rfl, fun _ => rfl⟩

theorem Later.trans (h : f.Later f') (h' : f'.Later f'') : f.Later f'' where
  version := Nat.le_trans h.version h'.version
  value same := by
    have middle : f'.version = f.version :=
      Nat.le_antisymm (same ▸ h'.version) h.version
    rw [h'.value (same.trans middle.symm), h.value middle]
  gone gone := by
    cases h.gone gone
    exact h'.gone gone

theorem Later.send (open_ : f.senderGone = false) (value : Bool) : f.Later (f.send value) where
  version := Nat.le_succ _
  value same := absurd same (Nat.succ_ne_self _)
  gone gone := by simp [open_] at gone

theorem Later.drop (f : ShutdownFlag) : f.Later { f with senderGone := true } where
  version := Nat.le_refl _
  value _ := rfl
  gone gone := by rw [← gone]

/-- The first `seen` settings of the flag have passed, and the last of them was not true. -/
structure Passed (f : ShutdownFlag) (seen : Nat) : Prop where
  le : seen ≤ f.version
  value : f.version = seen → f.value = false

/-- At first there is no setting to see. -/
theorem passed_start (later : ({} : ShutdownFlag).Later f) : f.Passed 0 :=
  ⟨Nat.zero_le _, later.value⟩

theorem Passed.later (h : f.Passed seen) (later : f.Later f') : f'.Passed seen where
  le := Nat.le_trans h.le later.version
  value same := by
    have before : f'.version = f.version :=
      Nat.le_antisymm (same ▸ h.le) later.version
    rw [later.value before, h.value (before ▸ same)]

/-- The news is a setting that was not seen, or that there will be none. -/
theorem news_cases (h : f.news seen = some s) :
    s = .shutdown f.value ∨ s = .senderGone ∧ f.version = seen ∧ f.senderGone = true := by
  unfold news at h
  split at h
  · exact .inl (Option.some.inj h).symm
  · rename_i same
    split at h
    · rename_i gone
      exact .inr ⟨(Option.some.inj h).symm, Decidable.not_not.1 same, gone⟩
    · cases h

theorem news_gone (gone : f.senderGone = true) : f.news f.version = some .senderGone := by
  simp [news, gone]

/-- After news other than a setting to true all settings have passed. -/
theorem Passed.heard (h : f.Passed seen) (news : f.news seen = some s)
    (goesOn : s ≠ .shutdown true) : f.Passed f.version := by
  refine ⟨Nat.le_refl _, fun _ => ?_⟩
  obtain rfl | ⟨-, same, -⟩ := news_cases news
  · exact Bool.eq_false_iff.2 fun value => goesOn (by rw [value])
  · exact h.value same

end ShutdownFlag

/-! ## Runs of a loop -/

/-- A signal that a worker may take in while it waits for the time `tick`; gives the worker and the
host that have taken it in. -/
inductive Worker.Offered (h : TimedHost) (w : Worker) (tick : Nat) :
    Signal → Worker → TimedHost → Prop
  | tick : tick ≤ h.clock →
      Offered h w tick .tick { w with phase := .waiting (tick + w.interval) } h
  | request {r host} : w.requestsOpen = true → h.host.receive = some (r, host) →
      Offered h w tick (.request r) w { h with host }
  | requestsClosed : w.requestsOpen = true → Offered h w tick .requestsClosed w h
  | reviewEnded {id} : id ∈ w.jobs → h.jobEnded id = true →
      Offered h w tick .reviewEnded { w with jobs := w.jobs.erase id }
        { h with jobs := h.jobs.erase id }
  | news {s} : h.shutdown.news w.seen = some s →
      Offered h w tick s { w with seen := h.shutdown.version } h

/-- Something that a loop does. -/
inductive Deed where
  /-- It starts a job that reviews a class, or every class with work. -/
  | review (scope : Option ResourceClass)
  /-- It runs what is ready and submits an item. -/
  | arrival
deriving DecidableEq

/-- What was done to a host that became `h'`: the jobs that were added to it and the items that load
generators submitted. -/
def TimedHost.deeds (h h' : TimedHost) : List Deed :=
  (List.range' h.nextJob (h'.nextJob - h.nextJob)).filterMap
      (fun id => (h'.jobs.find? id).map fun job => .review job.scope) ++
    List.replicate (h'.arrivals - h.arrivals) .arrival

namespace BackgroundLoop

/-- How many settings of the flag a loop has seen. -/
def seen : BackgroundLoop → Nat
  | worker w => w.seen
  | generator g => g.seen

/-- Whether a loop waits for a signal. -/
def waits (l : BackgroundLoop) : Bool := l.nextTick?.isSome

/-- Whether a loop takes in no signal any more. -/
def atRest (l : BackgroundLoop) : Bool :=
  match l.phase with
  | .draining | .spinning | .finished => true
  | .starting | .waiting _ => false

/-- What a loop does on a signal. -/
def deed? : BackgroundLoop → Signal → Option Deed
  | worker _, s =>
    match s with
    | .tick => some (.review none)
    | .request r => some (.review (some r.resource))
    | _ => none
  | generator g, s => if s = .tick ∧ g.classes ≠ [] then some .arrival else none

/-- Whether a signal makes a loop leave. -/
def heeds : BackgroundLoop → Signal → Bool
  | worker _, s => s.stops
  | generator _, s => s == .shutdown true

/-- A loop that waits takes in a signal and does what it does on it. -/
inductive Takes (h : TimedHost) : BackgroundLoop → Signal → BackgroundLoop → TimedHost → Prop
  | worker {w tick s w₁ h₁} : w.phase = .waiting tick → w.Offered h tick s w₁ h₁ →
      Takes h (.worker w) s (.worker (h₁.workerActs w₁ (.on s)).1) (h₁.workerActs w₁ (.on s)).2.2
  | arrive {g tick} : g.phase = .waiting tick → tick ≤ h.clock →
      Takes h (.generator g) .tick
        (.generator { (h.arrive g).1 with phase := .waiting (tick + (h.arrive g).1.every) })
        (h.arrive g).2
  | stop {g tick s} : g.phase = .waiting tick → h.shutdown.news g.seen = some s →
      GeneratorAction.on h.shutdown.value s = .stop →
      Takes h (.generator g) s
        (.generator { g with seen := h.shutdown.version, phase := .finished }) h
  | goOn {g tick s} : g.phase = .waiting tick → h.shutdown.news g.seen = some s →
      GeneratorAction.on h.shutdown.value s ≠ .stop →
      Takes h (.generator g) s (.generator { g with seen := h.shutdown.version }) h

/-- A loop is told some signals and does something on them. Before each of them the host may change
in any way that leaves the past of the shutdown flag as it is. -/
inductive Hears :
    TimedHost → BackgroundLoop → List Signal → List Deed → BackgroundLoop → TimedHost → Prop
  | nil {h l} : Hears h l [] [] l h
  | cons {h h₁ h₂ h₃ l l₁ l₂ s signals deeds} : h.shutdown.Later h₁.shutdown →
      Takes h₁ l s l₁ h₂ → Hears h₂ l₁ signals deeds l₂ h₃ →
      Hears h l (s :: signals) (h₁.deeds h₂ ++ deeds) l₂ h₃

variable {h h' : TimedHost} {l l' : BackgroundLoop} {s : Signal} {signals : List Signal}
  {deeds : List Deed}

theorem waits_of_phase {tick : Nat} (phase : l.phase = .waiting tick) : l.waits = true := by
  rw [waits, nextTick?, phase]
  rfl

theorem waits_eq_false (phase : ∀ tick, l.phase ≠ .waiting tick) : l.waits = false := by
  rw [waits, nextTick?]
  split
  · exact absurd ‹_› (phase _)
  · rfl

theorem not_waits_of_atRest (rest : l.atRest = true) : l.waits = false :=
  waits_eq_false fun tick waiting => by simp [atRest, waiting] at rest

theorem Takes.waits (t : Takes h l s l' h') : l.waits = true := by
  cases t with
  | worker phase | arrive phase | stop phase | goOn phase => exact waits_of_phase phase

end BackgroundLoop

/-! ## One signal -/

namespace TimedHost

open BackgroundLoop (worker generator)

variable {h h₁ : TimedHost} {w w₁ : Worker} {g : LoadGenerator} {s : Signal} {tick seen : Nat}

/-- The jobs and items that a step adds are counted from where the counters stood. -/
theorem deeds_congr {h' : TimedHost} (jobs : h₁.nextJob = h.nextJob)
    (arrivals : h₁.arrivals = h.arrivals) : h₁.deeds h' = h.deeds h' := by
  rw [deeds, deeds, jobs, arrivals]

theorem deeds_eq_nil (jobs : h₁.nextJob = h.nextJob) (arrivals : h₁.arrivals = h.arrivals) :
    h.deeds h₁ = [] := by
  simp [deeds, jobs, arrivals]

/-! ### The worker -/

/-- Taking in a signal touches neither the flag nor the counters. -/
theorem offered_frame (o : w.Offered h tick s w₁ h₁) :
    h₁.shutdown = h.shutdown ∧ h₁.nextJob = h.nextJob ∧ h₁.arrivals = h.arrivals := by
  cases o <;> exact ⟨rfl, rfl, rfl⟩

theorem offered_waits (phase : w.phase = .waiting tick) (o : w.Offered h tick s w₁ h₁) :
    ∃ tick', w₁.phase = .waiting tick' := by
  cases o with
  | tick => exact ⟨_, rfl⟩
  | request | requestsClosed | reviewEnded | news => exact ⟨tick, phase⟩

/-- A worker that goes on was not told to stop by the setting it saw. -/
theorem offered_passed (o : w.Offered h tick s w₁ h₁) (passed : h.shutdown.Passed w.seen)
    (goesOn : s.stops = false) : h₁.shutdown.Passed w₁.seen := by
  cases o with
  | tick | request | requestsClosed | reviewEnded => exact passed
  | news news =>
    refine passed.heard news ?_
    rintro rfl
    cases goesOn

theorem workerActs_frame (h : TimedHost) (w : Worker) (a : WorkerAction) :
    (h.workerActs w a).1.seen = w.seen ∧ (h.workerActs w a).2.2.shutdown = h.shutdown ∧
      (h.workerActs w a).2.2.loops = h.loops := by
  cases a <;> exact ⟨rfl, rfl, rfl⟩

/-- A worker stops on the signals it should stop on. -/
theorem phase_workerActs (h : TimedHost) (w : Worker) (s : Signal) :
    (h.workerActs w (.on s)).1.phase = if s.stops then .draining else w.phase := by
  cases s with
  | shutdown value => cases value <;> rfl
  | tick | request | requestsClosed | reviewEnded | senderGone => rfl

/-- A worker starts the job that a signal calls for. -/
theorem deeds_workerActs (h : TimedHost) (w : Worker) (s : Signal) :
    h.deeds (h.workerActs w (.on s)).2.2 = ((worker w).deed? s).toList := by
  have job (scope : Option ResourceClass) : h.deeds (h.addJob scope).2 = [.review scope] := by
    simp [deeds, addJob]
  cases s with
  | tick => exact job none
  | request r => exact job (some r.resource)
  | shutdown value => cases value <;> exact deeds_eq_nil rfl rfl
  | requestsClosed | reviewEnded | senderGone => exact deeds_eq_nil rfl rfl

/-! ### The load generator -/

/-- At a tick a load generator with classes submits an item, and one without classes does not. -/
theorem arrive_eq (h : TimedHost) (g : LoadGenerator) :
    ∃ host, h.arrive g =
      ({ g with arrivals := g.arrivals + if g.classes = [] then 0 else 1 },
        { h with host, arrivals := h.arrivals + if g.classes = [] then 0 else 1 }) := by
  unfold arrive
  dsimp only
  split
  · rename_i none_
    have empty : g.classes = [] := by
      cases classes : g.classes with
      | nil => rfl
      | cons r rest =>
        rw [classes] at none_
        exact absurd (List.getElem?_eq_none_iff.1 none_) (Nat.not_le.2 (Nat.mod_lt _ (by simp)))
    exact ⟨_, by rw [if_pos empty]; rfl⟩
  · rename_i here
    have nonempty : g.classes ≠ [] := by
      rintro empty
      simp [empty] at here
    exact ⟨_, by rw [if_neg nonempty]⟩

theorem deeds_arrive (h : TimedHost) (g : LoadGenerator) :
    h.deeds (h.arrive g).2 = ((generator g).deed? .tick).toList := by
  obtain ⟨host, eq⟩ := h.arrive_eq g
  rw [eq]
  by_cases empty : g.classes = [] <;> simp [deeds, BackgroundLoop.deed?, empty]

/-- Of what it is told about the flag, a load generator that has passed all settings so far leaves
at a setting to true only. -/
theorem generator_stops_iff (passed : h.shutdown.Passed seen)
    (news : h.shutdown.news seen = some s) :
    GeneratorAction.on h.shutdown.value s = .stop ↔ s = .shutdown true := by
  obtain rfl | ⟨rfl, same, -⟩ := ShutdownFlag.news_cases news
  · cases h.shutdown.value <;> decide
  · rw [passed.value same]
    decide

end TimedHost

namespace BackgroundLoop

variable {h h' : TimedHost} {l l' : BackgroundLoop} {g : LoadGenerator} {s : Signal}
  {signals : List Signal} {deeds : List Deed}

theorem Takes.shutdown_eq (t : Takes h l s l' h') : h'.shutdown = h.shutdown := by
  cases t with
  | @worker w _ _ w₁ h₁ _ offered =>
    exact (h₁.workerActs_frame w₁ _).2.1.trans (TimedHost.offered_frame offered).1
  | @arrive g =>
    obtain ⟨host, eq⟩ := h.arrive_eq g
    rw [eq]
  | stop | goOn => rfl

theorem Takes.loops_eq (t : Takes h l s l' h') : h'.loops = h.loops := by
  cases t with
  | @worker w _ _ w₁ h₁ _ offered =>
    have acts := (h₁.workerActs_frame w₁ (.on s)).2.2
    cases offered <;> exact acts
  | @arrive g =>
    obtain ⟨host, eq⟩ := h.arrive_eq g
    rw [eq]
  | stop | goOn => rfl

/-- What a loop does on a signal. -/
theorem Takes.deeds_eq (t : Takes h l s l' h') : h.deeds h' = (l.deed? s).toList := by
  cases t with
  | @worker w _ _ w₁ h₁ _ offered =>
    obtain ⟨-, jobs, arrivals⟩ := TimedHost.offered_frame offered
    rw [← TimedHost.deeds_congr jobs arrivals]
    exact h₁.deeds_workerActs w₁ s
  | @arrive g => exact h.deeds_arrive g
  | stop phase news | goOn phase news =>
    rw [TimedHost.deeds_eq_nil rfl rfl]
    obtain rfl | ⟨rfl, -, -⟩ := ShutdownFlag.news_cases news <;> rfl

/-- A signal does not change what the loop does on others. -/
theorem Takes.same (t : Takes h l s l' h') : l'.deed? = l.deed? ∧ l'.heeds = l.heeds := by
  cases t with
  | worker | stop | goOn => exact ⟨rfl, rfl⟩
  | @arrive g =>
    obtain ⟨host, eq⟩ := h.arrive_eq g
    rw [eq]
    exact ⟨rfl, rfl⟩

/-- A loop leaves at the signals that it heeds and goes on at the others. -/
theorem Takes.leaves_or_waits (t : Takes h l s l' h') (passed : h.shutdown.Passed l.seen) :
    l.heeds s = true ∧ l'.atRest = true ∨ l.heeds s = false ∧ l'.waits = true := by
  cases t with
  | @worker w _ _ w₁ h₁ phase offered =>
    have acts := h₁.phase_workerActs w₁ s
    obtain ⟨tick, phase₁⟩ := TimedHost.offered_waits phase offered
    cases stops : s.stops with
    | true =>
      rw [stops, if_pos rfl] at acts
      exact .inl ⟨stops, by rw [atRest, BackgroundLoop.phase, acts]⟩
    | false =>
      rw [stops, if_neg Bool.false_ne_true] at acts
      exact .inr ⟨stops, waits_of_phase (acts.trans phase₁)⟩
  | arrive => exact .inr ⟨rfl, waits_of_phase rfl⟩
  | stop phase news stop =>
    obtain rfl := (TimedHost.generator_stops_iff passed news).1 stop
    exact .inl ⟨rfl, rfl⟩
  | goOn phase news goOn =>
    have other : s ≠ .shutdown true := fun eq =>
      goOn ((TimedHost.generator_stops_iff passed news).2 eq)
    exact .inr ⟨beq_eq_false_iff_ne.2 other, waits_of_phase phase⟩

/-- A loop that goes on was not told to stop. -/
theorem Takes.passed (t : Takes h l s l' h') (passed : h.shutdown.Passed l.seen)
    (goesOn : l.heeds s = false) : h'.shutdown.Passed l'.seen := by
  rw [t.shutdown_eq]
  cases t with
  | @worker w _ _ w₁ h₁ phase offered =>
    rw [seen, (h₁.workerActs_frame w₁ _).1, ← (TimedHost.offered_frame offered).1]
    exact TimedHost.offered_passed offered passed goesOn
  | @arrive g =>
    obtain ⟨host, eq⟩ := h.arrive_eq g
    rw [eq]
    exact passed
  | stop phase news | goOn phase news => exact passed.heard news (beq_eq_false_iff_ne.1 goesOn)

/-! ## Runs -/

theorem Hears.of_left (run : Hears h l signals deeds l' h') (left : l.waits = false) :
    signals = [] ∧ deeds = [] ∧ l' = l ∧ h' = h := by
  cases run with
  | nil => exact ⟨rfl, rfl, rfl, rfl⟩
  | cons _ takes => cases takes.waits.symm.trans left

/-- A loop does what its signals call for, up to the first signal that it heeds, where it leaves. -/
theorem Hears.exact (run : Hears h l signals deeds l' h') (waits : l.waits = true)
    (passed : h.shutdown.Passed l.seen) :
    deeds = signals.filterMap l.deed? ∧ LeavesAt l.heeds signals (l'.atRest = true) := by
  induction run with
  | @nil h l =>
    have inside : ¬l.atRest = true := fun rest => by
      cases waits.symm.trans (not_waits_of_atRest rest)
    exact ⟨rfl, nofun, iff_of_false inside nofun⟩
  | @cons h h₁ h₂ h₃ l l₁ l₂ s signals deeds later takes rest ih =>
    have passed₁ := passed.later later
    obtain ⟨sameDeeds, sameHeeds⟩ := takes.same
    have first : h₁.deeds h₂ ++ signals.filterMap l.deed? = (s :: signals).filterMap l.deed? := by
      rw [takes.deeds_eq, List.filterMap_cons]
      cases l.deed? s <;> rfl
    obtain ⟨heeds, atRest⟩ | ⟨heeds, waits₁⟩ := takes.leaves_or_waits passed₁
    -- The loop has left, so that there is no signal after this one.
    · obtain ⟨rfl, rfl, rfl, rfl⟩ := rest.of_left (not_waits_of_atRest atRest)
      exact ⟨first, nofun, iff_of_true atRest ⟨s, List.mem_cons_self, heeds⟩⟩
    · obtain ⟨deeds_eq, last, left_iff⟩ := ih waits₁ (takes.passed passed₁ heeds)
      rw [sameHeeds] at last left_iff
      refine ⟨by rw [deeds_eq, sameDeeds, first], ?_, by simpa [heeds] using left_iff⟩
      intro x mem
      cases signals with
      | nil => cases mem
      | cons s' signals =>
        obtain rfl | mem := List.mem_cons.1 mem
        · exact heeds
        · exact last x mem

/-! ## Without a sender -/

/-- A load generator waits although nothing will be heard about the flag any more. -/
structure Stranded (h : TimedHost) (l : BackgroundLoop) : Prop where
  generator : ∃ g, l = .generator g
  waits : l.waits = true
  gone : h.shutdown.senderGone = true
  seen : h.shutdown.version = l.seen
  value : h.shutdown.value = false

theorem Takes.generator (t : Takes h l s l' h') (generator : ∃ g, l = .generator g) :
    ∃ g, l' = .generator g := by
  obtain ⟨g, rfl⟩ := generator
  cases t <;> exact ⟨_, rfl⟩

/-- A load generator that hears that the sender has gone goes on. -/
theorem Takes.stranded (t : Takes h l .senderGone l' h') (generator : ∃ g, l = .generator g)
    (passed : h.shutdown.Passed l.seen) : Stranded h' l' := by
  have generator' := t.generator generator
  obtain ⟨g, rfl⟩ := generator
  cases t with
  | stop phase news stop => cases (TimedHost.generator_stops_iff passed news).1 stop
  | goOn phase news =>
    obtain ⟨⟨⟩⟩ | ⟨-, same, gone⟩ := ShutdownFlag.news_cases news
    exact ⟨generator', waits_of_phase phase, gone, rfl, passed.value same⟩

theorem Stranded.takes (stranded : Stranded h l) (t : Takes h l s l' h') : Stranded h' l' := by
  obtain ⟨⟨g, rfl⟩, -, gone, same, value⟩ := stranded
  cases t with
  | arrive =>
    obtain ⟨host, eq⟩ := h.arrive_eq g
    rw [eq]
    exact ⟨⟨_, rfl⟩, waits_of_phase rfl, gone, same, value⟩
  | stop _ news stop =>
    rw [← show h.shutdown.version = g.seen from same, ShutdownFlag.news_gone gone] at news
    cases news
    rw [value] at stop
    cases stop
  | goOn phase => exact ⟨⟨_, rfl⟩, waits_of_phase phase, gone, rfl, value⟩

theorem Stranded.hears (stranded : Stranded h l) (run : Hears h l signals deeds l' h') :
    Stranded h' l' := by
  induction run with
  | nil => exact stranded
  | cons later takes _ ih =>
    have still := later.gone stranded.gone
    refine ih (Stranded.takes ⟨stranded.generator, stranded.waits, ?_, ?_, ?_⟩ takes)
    · rw [still, stranded.gone]
    · rw [still, stranded.seen]
    · rw [still, stranded.value]

/-- A load generator that was told that the sender has gone never leaves. -/
theorem Hears.stranded (run : Hears h l signals deeds l' h') (generator : ∃ g, l = .generator g)
    (passed : h.shutdown.Passed l.seen) (gone : .senderGone ∈ signals) : Stranded h' l' := by
  induction run with
  | nil => cases gone
  | @cons h h₁ h₂ h₃ l l₁ l₂ s signals deeds later takes rest ih =>
    have passed₁ := passed.later later
    obtain rfl | gone := List.mem_cons.1 gone
    · exact (takes.stranded generator passed₁).hears rest
    -- The sender is heard of later, so that the loop has not left yet.
    · obtain ⟨-, atRest⟩ | ⟨heeds, -⟩ := takes.leaves_or_waits passed₁
      · obtain ⟨rfl, -⟩ := rest.of_left (not_waits_of_atRest atRest)
        cases gone
      · exact ih (takes.generator generator) (takes.passed passed₁ heeds) gone

/-- The signals at which a loop should leave are those at which it leaves, unless it is a load
generator and was told that the sender has gone. -/
theorem Hears.leavesAt_stops_iff (run : Hears h l signals deeds l' h') (waits : l.waits = true)
    (passed : h.shutdown.Passed l.seen) :
    LeavesAt Signal.stops signals (l'.atRest = true) ↔
      ((∃ g, l = .generator g) → .senderGone ∉ signals) := by
  have leaves := (run.exact waits passed).2
  cases l with
  | worker w => exact iff_of_true leaves nofun
  | generator g =>
    constructor
    · intro stops generator gone
      have left := not_waits_of_atRest (stops.left_iff.2 ⟨.senderGone, gone, rfl⟩)
      cases left.symm.trans (run.stranded generator passed gone).waits
    · intro heard
      have stops_eq : ∀ s ∈ signals, s.stops = (BackgroundLoop.generator g).heeds s := by
        intro s mem
        cases s with
        | senderGone => exact absurd mem (heard ⟨g, rfl⟩)
        | shutdown value => cases value <;> rfl
        | tick | request | requestsClosed | reviewEnded => rfl
      refine ⟨fun s mem => (stops_eq s (List.dropLast_subset _ mem)).trans (leaves.last s mem),
        leaves.left_iff.trans ?_⟩
      exact exists_congr fun s => and_congr_right fun mem => by rw [stops_eq s mem]

/-! ## Turns -/

/-- A loop that starts begins to wait; a load generator without classes ends at once. -/
def enter (clock : Nat) : BackgroundLoop → BackgroundLoop
  | worker w =>
    if w.phase = .starting then worker { w with phase := .waiting (clock + w.interval) }
    else worker w
  | generator g =>
    if g.phase = .starting then
      generator { g with phase := if g.classes.isEmpty then .finished else .waiting clock }
    else generator g

/-- What a turn does when no more signals are taken in. A worker that has stopped clears up, and a
load generator is told for ever that the sender has gone. -/
inductive Settles : BackgroundLoop → TimedHost → BackgroundLoop → TimedHost → Prop
  | same {l : BackgroundLoop} {h : TimedHost} : Settles l h l h
  | drains {w : Worker} {h : TimedHost} : w.phase = .draining →
      Settles (.worker w) h (.worker (h.drainWorker w).1) (h.drainWorker w).2
  | sticks {g : LoadGenerator} {h : TimedHost} {tick : Nat} : g.phase = .waiting tick →
      h.shutdown.news g.seen = some .senderGone →
      Settles (.generator g) h (.generator { g with phase := .spinning }) h

end BackgroundLoop

namespace TimedHost

open BackgroundLoop

/-- The signal for a worker is one that is there. -/
theorem workerSignal_offered {h h₁ : TimedHost} {w w₁ : Worker} {tick : Nat} {s : Signal}
    (signal : h.workerSignal w tick = some (s, w₁, h₁)) : w.Offered h tick s w₁ h₁ := by
  unfold workerSignal at signal
  split at signal
  · rename_i due
    cases signal
    exact .tick due
  split at signal
  · rename_i closed
    cases signal
    exact .requestsClosed (Bool.and_eq_true_iff.1 closed).1
  split at signal
  · rename_i r host received
    cases signal
    split at received
    · rename_i isOpen
      exact .request isOpen received
    · cases received
  split at signal
  · rename_i id ended
    cases signal
    exact .reviewEnded (List.mem_of_find?_eq_some ended) (List.find?_some ended)
  · obtain ⟨s', news, eq⟩ := Option.map_eq_some_iff.1 signal
    cases eq
    exact .news news

/-- A turn of a worker is a run. -/
theorem hears_runWorker (n : Nat) (w : Worker) (started : List JobId) (h : TimedHost)
    (begun : w.phase ≠ .starting) :
    ∃ signals deeds l₁ h₁, Hears h (.worker w) signals deeds l₁ h₁ ∧ h₁.loops = h.loops ∧
      Settles l₁ h₁ (.worker (runWorker n w started h).1) (runWorker n w started h).2.2 := by
  -- A turn may end anywhere, and each part of a run is a run.
  induction n generalizing w started h with
  | zero => exact ⟨[], [], _, _, .nil, rfl, .same⟩
  | succ n ih =>
    rw [runWorker]
    cases phase : w.phase with
    | starting => exact absurd phase begun
    | waiting tick =>
      dsimp only
      cases signal : h.workerSignal w tick with
      | none => exact ⟨[], [], _, _, .nil, rfl, .same⟩
      | some told =>
        obtain ⟨s, w₁, h₁⟩ := told
        have offered := workerSignal_offered signal
        have begun' : (h₁.workerActs w₁ (.on s)).1.phase ≠ .starting := by
          obtain ⟨tick', phase₁⟩ := offered_waits phase offered
          rw [phase_workerActs, phase₁]
          split <;> simp
        have takes : Takes h (.worker w) s _ _ := .worker phase offered
        obtain ⟨signals, deeds, l₂, h₂, run, loops, settles⟩ :=
          ih (h₁.workerActs w₁ (.on s)).1 (started ++ (h₁.workerActs w₁ (.on s)).2.1)
            (h₁.workerActs w₁ (.on s)).2.2 begun'
        exact ⟨s :: signals, _, l₂, h₂, .cons (.refl _) takes run, loops.trans takes.loops_eq,
          settles⟩
    | draining => exact ⟨[], [], _, _, .nil, rfl, .drains phase⟩
    | spinning | finished => exact ⟨[], [], _, _, .nil, rfl, .same⟩

/-- A turn of a load generator is a run. -/
theorem hears_runGenerator (n : Nat) (g : LoadGenerator) (h : TimedHost)
    (begun : g.phase ≠ .starting) :
    ∃ signals deeds l₁ h₁, Hears h (.generator g) signals deeds l₁ h₁ ∧ h₁.loops = h.loops ∧
      Settles l₁ h₁ (.generator (runGenerator n g h).1) (runGenerator n g h).2 := by
  induction n generalizing g h with
  | zero => exact ⟨[], [], _, _, .nil, rfl, .same⟩
  | succ n ih =>
    rw [runGenerator]
    cases phase : g.phase with
    | starting => exact absurd phase begun
    | draining | spinning | finished => exact ⟨[], [], _, _, .nil, rfl, .same⟩
    | waiting tick =>
      dsimp only
      by_cases due : tick ≤ h.clock
      · rw [if_pos due]
        have takes : Takes h (.generator g) .tick _ _ := .arrive phase due
        obtain ⟨signals, deeds, l₂, h₂, run, loops, settles⟩ :=
          ih { (h.arrive g).1 with phase := .waiting (tick + (h.arrive g).1.every) } (h.arrive g).2
            nofun
        exact ⟨.tick :: signals, _, l₂, h₂, .cons (.refl _) takes run, loops.trans takes.loops_eq,
          settles⟩
      · rw [if_neg due]
        cases news : h.shutdown.news g.seen with
        | none => exact ⟨[], [], _, _, .nil, rfl, .same⟩
        | some s =>
          dsimp only
          cases act : GeneratorAction.on h.shutdown.value s with
          | stop => exact ⟨[s], _, _, _, .cons (.refl _) (.stop phase news act) .nil, rfl, .same⟩
          | goOn | arrive =>
            have goesOn : Takes h (.generator g) s
                (.generator { g with phase := .waiting tick, seen := h.shutdown.version }) h := by
              rw [← phase]
              exact .goOn phase news (by rw [act]; nofun)
            obtain rfl | ⟨rfl, -, gone⟩ := ShutdownFlag.news_cases news
            · obtain ⟨signals, deeds, l₂, h₂, run, loops, settles⟩ :=
                ih { g with phase := .waiting tick, seen := h.shutdown.version } h nofun
              exact ⟨_ :: signals, _, l₂, h₂, .cons (.refl _) goesOn run, loops, settles⟩
            · exact ⟨[.senderGone], _, _, _, .cons (.refl _) goesOn .nil, rfl,
                .sticks rfl (ShutdownFlag.news_gone gone)⟩

/-- The turn of a loop is a run from where it begins to wait. -/
theorem hears_run {h : TimedHost} {i : Nat} {l : BackgroundLoop} (here : h.loops[i]? = some l) :
    ∃ signals deeds l₁ h₁ l₂ h₂, Hears h (l.enter h.clock) signals deeds l₁ h₁ ∧
      h₁.loops = h.loops ∧ Settles l₁ h₁ l₂ h₂ ∧ (h.run (.loop i)).2 = h₂.setLoop i l₂ := by
  cases l with
  | worker w =>
    simp only [run, here]
    by_cases starting : w.phase = .starting
    · obtain ⟨signals, deeds, l₁, h₁, run, loops, settles⟩ :=
        hears_runWorker (h.host.site.line.waiting.length + w.jobs.length + 5)
          { w with phase := .waiting (h.clock + w.interval) } [] h nofun
      refine ⟨signals, deeds, l₁, h₁, _, _, ?_, loops, settles, ?_⟩
      · rw [enter, if_pos starting]
        exact run
      · rw [workerBound, runWorker, starting]
    · obtain ⟨signals, deeds, l₁, h₁, run, loops, settles⟩ :=
        hears_runWorker (h.workerBound w) w [] h starting
      refine ⟨signals, deeds, l₁, h₁, _, _, ?_, loops, settles, rfl⟩
      rw [enter, if_neg starting]
      exact run
  | generator g =>
    simp only [run, here]
    by_cases starting : g.phase = .starting
    · rw [runGenerator, starting, enter, if_pos starting]
      cases empty : g.classes.isEmpty with
      | true => exact ⟨[], [], _, _, _, _, .nil, rfl, .same, by simp⟩
      | false =>
        obtain ⟨signals, deeds, l₁, h₁, run, loops, settles⟩ :=
          hears_runGenerator 3 { g with phase := .waiting h.clock } h nofun
        exact ⟨signals, deeds, l₁, h₁, _, _, run, loops, settles, by simp⟩
    · obtain ⟨signals, deeds, l₁, h₁, run, loops, settles⟩ := hears_runGenerator 4 g h starting
      refine ⟨signals, deeds, l₁, h₁, _, _, ?_, loops, settles, rfl⟩
      rw [enter, if_neg starting]
      exact run

end TimedHost

/-! ## After the loop -/

namespace BackgroundLoop

variable {h h' : TimedHost} {i : Nat} {l l' l'' : BackgroundLoop}

/-- A loop at rest stays what it is, except that the jobs of a worker come to their end and with
them the worker. -/
inductive Rests : BackgroundLoop → BackgroundLoop → Prop
  | worker {w w' : Worker} : w'.phase = w.phase ∨ w'.phase = .finished → w'.jobs.Sublist w.jobs →
      Rests (.worker w) (.worker w')
  | generator {g : LoadGenerator} : Rests (.generator g) (.generator g)

theorem Rests.refl (l : BackgroundLoop) : l.Rests l := by
  cases l with
  | worker w => exact .worker (.inl rfl) (.refl _)
  | generator g => exact .generator

theorem Rests.trans (r : l.Rests l') (r' : l'.Rests l'') : l.Rests l'' := by
  cases r with
  | generator => exact r'
  | worker phase jobs =>
    cases r' with
    | worker phase' jobs' =>
      refine .worker ?_ (jobs'.trans jobs)
      rcases phase' with same | ended
      · rw [same]
        exact phase
      · exact .inr ended

theorem Rests.atRest (r : l.Rests l') (rest : l.atRest = true) : l'.atRest = true := by
  cases r with
  | generator => exact rest
  | worker phase =>
    rcases phase with same | ended
    · rw [BackgroundLoop.atRest, phase, same]
      exact rest
    · rw [BackgroundLoop.atRest, phase, ended]

theorem enter_atRest (rest : l.atRest = true) (clock : Nat) : l.enter clock = l := by
  cases l <;> exact if_neg fun starting => by simp [atRest, phase, starting] at rest

end BackgroundLoop

namespace TimedHost

open BackgroundLoop

variable {h h' : TimedHost} {i : Nat} {l l' : BackgroundLoop}

/-- A worker that clears up only loses jobs, and closes its line at the end. -/
theorem drainWorker_spec (h : TimedHost) (w : Worker) :
    ((h.drainWorker w).1.phase = w.phase ∨ (h.drainWorker w).1.phase = .finished) ∧
      (h.drainWorker w).1.jobs.Sublist w.jobs ∧ h.deeds (h.drainWorker w).2 = [] ∧
      (h.drainWorker w).2.loops = h.loops ∧
      (h.drainWorker w).2.host.site.queue = h.host.site.queue := by
  unfold drainWorker
  rw [List.partition_eq_filter_filter]
  dsimp only
  split
  · refine ⟨.inr rfl, List.nil_sublist _, ?_⟩
    cases w.ownsLine <;> exact ⟨deeds_eq_nil rfl rfl, rfl, rfl⟩
  · exact ⟨.inl rfl, List.filter_sublist, deeds_eq_nil rfl rfl, rfl, rfl⟩

theorem settles_loops (settles : Settles l h l' h') : h'.loops = h.loops := by
  cases settles with
  | same | sticks => rfl
  | @drains w => exact (h.drainWorker_spec w).2.2.2.1

/-- The turn of a loop at rest does nothing: no job, no item, no work that is ready. -/
theorem run_atRest (here : h.loops[i]? = some l) (rest : l.atRest = true) :
    h.deeds (h.run (.loop i)).2 = [] ∧ (h.run (.loop i)).2.host.site.queue = h.host.site.queue ∧
      ∃ l', l.Rests l' ∧ (h.run (.loop i)).2.loops = h.loops.set i l' := by
  obtain ⟨signals, deeds, l₁, h₁, l₂, h₂, run, -, settles, eq⟩ := hears_run here
  rw [enter_atRest rest] at run
  obtain ⟨-, -, rfl, rfl⟩ := run.of_left (not_waits_of_atRest rest)
  rw [eq]
  cases settles with
  | same => exact ⟨deeds_eq_nil rfl rfl, rfl, _, .refl _, rfl⟩
  | @drains w =>
    obtain ⟨phase, jobs, deeds, loops, queue⟩ := drainWorker_spec _ w
    exact ⟨deeds, queue, _, .worker phase jobs, by rw [setLoop, loops]⟩
  | sticks waiting => simp [atRest, phase, waiting] at rest

theorem runJob_loops (h : TimedHost) (id : JobId) : (h.runJob id).loops = h.loops := by
  unfold runJob
  cases h.jobs.find? id with
  | none => rfl
  | some job =>
    dsimp only
    exact (apply_ite TimedHost.loops _ _ _).trans (ite_self _)

/-- The turns of others leave a loop alone. -/
theorem run_others (h : TimedHost) {r : Runner} (other : r ≠ .loop i) :
    (h.run r).2.loops[i]? = h.loops[i]? := by
  cases r with
  | job id => exact congrArg (·[i]?) (h.runJob_loops id)
  | loop j =>
    cases here : h.loops[j]? with
    | none => simp only [run, here]
    | some l =>
      obtain ⟨_, _, _, h₁, l₂, h₂, -, loops, settles, eq⟩ := hears_run here
      have ne : j ≠ i := fun same => other (by rw [same])
      rw [eq, setLoop, settles_loops settles, loops, List.getElem?_set_ne ne]

/-- A place where `l` was at rest. -/
def AtPlace (h : TimedHost) (i : Nat) (l : BackgroundLoop) : Prop :=
  ∃ l', h.loops[i]? = some l' ∧ l.Rests l'

theorem atPlace_run (rest : l.atRest = true) (place : h.AtPlace i l) (r : Runner) :
    (h.run r).2.AtPlace i l := by
  obtain ⟨l', here, rests⟩ := place
  by_cases own : r = .loop i
  · subst own
    obtain ⟨-, -, l'', rests', loops⟩ := run_atRest here (rests.atRest rest)
    have inside : i < h.loops.length := (List.getElem?_eq_some_iff.1 here).1
    exact ⟨l'', by rw [loops, List.getElem?_set_self inside], rests.trans rests'⟩
  · exact ⟨l', (run_others h own).trans here, rests⟩

theorem atPlace_settle (rest : l.atRest = true) (n : Nat) (line later : List Runner)
    (place : h.AtPlace i l) : (settle n line later h).AtPlace i l := by
  induction n generalizing line later h with
  | zero => exact place
  | succ n ih =>
    cases line with
    | cons r line => exact ih _ _ (atPlace_run rest place r)
    | nil =>
      cases later with
      | nil => exact place
      | cons r later => exact ih _ _ place

theorem atPlace_runUntil (rest : l.atRest = true) (target n : Nat) (place : h.AtPlace i l) :
    (runUntil target n h).AtPlace i l := by
  induction n generalizing h with
  | zero => exact place
  | succ n ih =>
    have settled := atPlace_settle rest h.turnBound h.ready [] place
    rw [runUntil]
    split
    · exact settled
    split
    · exact settled
    split
    · exact ih settled
    · exact settled

/-- What is at rest stays so however much time passes. -/
theorem atPlace_advance (rest : l.atRest = true) (here : h.loops[i]? = some l) (ms : Nat) :
    (h.advance ms).AtPlace i l := by
  have place : h.AtPlace i l := ⟨l, here, .refl l⟩
  rw [advance]
  split
  · exact place
  · exact atPlace_runUntil rest _ _ place

end TimedHost

/-! ## Both loops -/

namespace BackgroundLoop

/-- A background loop on a host. Its turns are runs from where it begins to wait. In a run it does
what its signals call for and leaves at the first one that should make it leave, if and only if it
is not a load generator that was told that the sender has gone; such a one goes on. A loop that has
left starts nothing, and stays so however much time passes. -/
theorem leaves_on_stop {h : TimedHost} {i : Nat} {l : BackgroundLoop} (here : h.loops[i]? = some l)
    (passed : h.shutdown.Passed l.seen) :
    (∃ signals deeds l₁ h₁ l₂ h₂, Hears h (l.enter h.clock) signals deeds l₁ h₁ ∧
        Settles l₁ h₁ l₂ h₂ ∧ (h.run (.loop i)).2 = h₂.setLoop i l₂) ∧
      (l.waits = true → ∀ signals deeds l' h', Hears h l signals deeds l' h' →
        deeds = signals.filterMap l.deed? ∧
          (LeavesAt Signal.stops signals (l'.atRest = true) ↔
            ((∃ g, l = .generator g) → .senderGone ∉ signals)) ∧
          ((∃ g, l = .generator g) → .senderGone ∈ signals → l'.waits = true)) ∧
      (l.atRest = true →
        h.deeds (h.run (.loop i)).2 = [] ∧ (h.run (.loop i)).2.host.site.queue = h.host.site.queue ∧
          ∀ ms, ∃ l', (h.advance ms).loops[i]? = some l' ∧ l.Rests l') := by
  refine ⟨?turn, ?run, ?after⟩
  case turn =>
    obtain ⟨signals, deeds, l₁, h₁, l₂, h₂, run, -, settles, eq⟩ := TimedHost.hears_run here
    exact ⟨signals, deeds, l₁, h₁, l₂, h₂, run, settles, eq⟩
  case run =>
    intro waits signals deeds l' h' run
    exact ⟨(run.exact waits passed).1, run.leavesAt_stops_iff waits passed,
      fun generator gone => (run.stranded generator passed gone).waits⟩
  case after =>
    intro rest
    obtain ⟨deeds, queue, -⟩ := TimedHost.run_atRest here rest
    exact ⟨deeds, queue, TimedHost.atPlace_advance rest here⟩

end BackgroundLoop

namespace Sample

/-- The loops of a host that is about to be told that the sender has gone. -/
def lastWorker : Worker := { interval := 10000, phase := .waiting 0, ownsLine := true }

def lastGenerator : LoadGenerator :=
  { every := 1000, classes := [.label "linux"], phase := .waiting 0 }

def abandoned : TimedHost where
  host := {
    wiring := { fastPath := true, trigger := none }
    chain := .ofList [.fallback]
    providers := []
    system := { site := { limiter := ⟨.empty, .enforcing⟩, line := .ofCapacity 8 } } }
  loops := [.worker lastWorker, .generator lastGenerator]
  shutdown := { senderGone := true }

end Sample

namespace BackgroundLoop

open Sample

/-- The worker reviews at its tick and leaves as the sender has gone. -/
theorem leaves_of_sample : ∃ l' h',
    Hears abandoned (.worker lastWorker) [.tick, .senderGone] [.review none] l' h' ∧
      LeavesAt Signal.stops [.tick, .senderGone] (l'.atRest = true) := by
  have passed : abandoned.shutdown.Passed 0 := ShutdownFlag.passed_start (.drop _)
  have due : Takes abandoned (.worker lastWorker) .tick _ _ := .worker rfl (.tick (Nat.le_refl 0))
  have run := Hears.cons (.refl _) due (.cons (.refl _) (.worker rfl (.news rfl)) .nil)
  have here : abandoned.loops[0]? = some (.worker lastWorker) := rfl
  obtain ⟨-, runs, -⟩ := leaves_on_stop here passed
  obtain ⟨deeds, leaves, -⟩ := runs rfl _ _ _ _ run
  exact ⟨_, _, deeds ▸ run, leaves.2 nofun⟩

/-- The load generator is told that the sender has gone and submits one more item. As time passes
the worker comes to its end and the load generator does not. -/
theorem stranded_of_sample :
    (∃ l' h', Hears abandoned (.generator lastGenerator) [.senderGone, .tick] [.arrival] l' h' ∧
      ¬LeavesAt Signal.stops [.senderGone, .tick] (l'.atRest = true)) ∧
      (abandoned.advance 10).finished = [true, false] := by
  refine ⟨?_, by decide +kernel⟩
  have told : Takes abandoned (.generator lastGenerator) .senderGone _ _ :=
    .goOn rfl rfl (by decide)
  have run := Hears.cons (.refl _) told (.cons (.refl _) (.arrive rfl (Nat.le_refl 0)) .nil)
  have passed : abandoned.shutdown.Passed 0 := ShutdownFlag.passed_start (.drop _)
  refine ⟨_, _, (run.exact rfl passed).1 ▸ run, fun stops => ?_⟩
  cases stops.last .senderGone List.mem_cons_self

end BackgroundLoop

end Muster
