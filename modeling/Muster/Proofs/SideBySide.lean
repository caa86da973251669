import Muster.Proofs.Rounds

/-!
# Side by side or one after the other

A pass over all classes reviews them side by side. The order in which the reviews take their turns
decides which identifiers capacity and reviews get, and the order of events; it decides nothing
else. Every run in which each class is reviewed once, one after the other or in any mixture, comes
to the same for every class, and a pass adds up the outcomes of any such run.

This needs providers that treat each class by itself. Simulated providers do, unless their script
looks at the units that are planned already.

**Main statements.** `SimulatedProvider.follows_manner`: simulated providers treat each class by
itself. `Run.reviews_confluent`: reviews of different classes are confluent.
-/

namespace Muster

/-! ## Sums of a pass -/

namespace ReviewStats

theorem foldl_add (outcomes : List Outcome) (stats : ReviewStats) :
    outcomes.foldl add stats = ⟨stats.classesReviewed + UInt32.ofNat outcomes.length,
      (outcomes.map (·.unitsRequested)).foldl Count.satAdd stats.unitsRequested,
      (outcomes.map (·.unsatisfied)).foldl Count.satAdd stats.unsatisfied⟩ := by
  induction outcomes generalizing stats with
  | nil => simp
  | cons o outcomes ih =>
    have count : stats.classesReviewed + 1 + UInt32.ofNat outcomes.length =
        stats.classesReviewed + UInt32.ofNat (o :: outcomes).length := by
      rw [List.length_cons, UInt32.ofNat_add, UInt32.add_assoc, UInt32.add_comm 1]
      rfl
    rw [List.foldl_cons, ih, ← count]
    rfl

/-- The sums over a pass: the number of classes, and the units that were requested and are lacking,
as far as they can be counted. -/
theorem foldl_add_empty (outcomes : List Outcome) :
    outcomes.foldl add {} = ⟨UInt32.ofNat outcomes.length,
      Count.satSum (outcomes.map (·.unitsRequested)),
      Count.satSum (outcomes.map (·.unsatisfied))⟩ := by
  rw [foldl_add, show ({} : ReviewStats).classesReviewed = 0 from rfl, UInt32.zero_add]
  rfl

end ReviewStats

/-! ## Simulated providers -/

/-- How providers treat a class that they have heard nothing about. Units that they do not create at
once come one by one. -/
def Behaviour.manner (b : Behaviour) : Manner where
  headroom p r _ := b.headroom [] p r 0
  prompt q _ := (b.respond [] 0 q).isSome
  sizes q _ :=
    match b.respond [] 0 q with
    | some (.ok planned) => some (planned.map (·.units))
    | some (.error _) => none
    | none => some (List.replicate q.units.toNat 1)

/-- The provider does not look at the units that are planned with it. -/
def Conduct.Steady : Conduct → Prop
  | .plain .. => True
  | .scripted s => s.maxPlanned = none

theorem planned_units (created : Nat) (p : Provider) (r : ResourceClass) (sizes : List Count) :
    (planned created p r sizes).map (·.units) = sizes :=
  List.ext_getElem (by simp [planned]) (by simp [planned])

theorem mem_planned {created : Nat} {p : Provider} {r : ResourceClass} {sizes : List Count}
    {x : PlannedCapacity} (mem : x ∈ planned created p r sizes) :
    x.provider = p.id ∧ x.resource = r := by
  obtain ⟨i, -, rfl⟩ := List.mem_mapIdx.1 mem
  exact ⟨rfl, rfl⟩

theorem Conduct.Steady.headroom {c : Conduct} (h : c.Steady) (p : Provider) (r : ResourceClass)
    (current : Count) : c.headroom p r current = c.headroom p r 0 := by
  cases c with
  | plain fault _ => cases fault <;> rfl
  | scripted s => simp only [Conduct.headroom, show s.maxPlanned = none from h]

/-- Identifiers apart, an answer does not depend on how much was created before. -/
theorem Conduct.respond_cases (c : Conduct) (q : Request) :
    (∀ n, c.respond n q = none) ∨ (∃ e, ∀ n, c.respond n q = some (.error e)) ∨
      ∃ sizes, ∀ n, c.respond n q = some (.ok (planned n q.provider q.resource sizes)) := by
  cases c with
  | plain fault _ =>
    cases fault with
    | requests => exact .inr (.inl ⟨_, fun _ => rfl⟩)
    | none | queries => exact .inl fun _ => rfl
  | scripted s =>
    cases refused : s.provisionError with
    | some reason => exact .inr (.inl ⟨_, fun _ => by simp only [Conduct.respond, refused]; rfl⟩)
    | none => exact .inr (.inr ⟨_, fun _ => by simp only [Conduct.respond, refused]; rfl⟩)

namespace SimulatedProvider

variable {providers : List SimulatedProvider}

theorem respond_cases (providers : List SimulatedProvider) (q : Request) :
    (∀ calls n, (behaviour providers).respond calls n q = none) ∨
      (∃ e, ∀ calls n, (behaviour providers).respond calls n q = some (.error e)) ∨
      ∃ sizes, ∀ calls n, (behaviour providers).respond calls n q =
        some (.ok (planned n q.provider q.resource sizes)) := by
  simp only [behaviour]
  cases find? providers q.provider with
  | none => exact .inl fun _ _ => rfl
  | some s =>
    rcases s.conduct.respond_cases q with late | ⟨e, refused⟩ | ⟨sizes, given⟩
    · exact .inl fun _ n => late n
    · exact .inr (.inl ⟨e, fun _ n => refused n⟩)
    · exact .inr (.inr ⟨sizes, fun _ n => given n⟩)

/-- Simulated providers treat each class by itself. -/
theorem follows_manner (steady : ∀ s ∈ providers, s.conduct.Steady) :
    (behaviour providers).Follows (behaviour providers).manner where
  headroom calls p r current := by
    simp only [Behaviour.manner, behaviour]
    cases found : find? providers p with
    | none => rfl
    | some s => exact (steady s (List.mem_of_find?_eq_some found)).headroom p r current
  prompt calls created q := by
    rcases respond_cases providers q with same | ⟨e, same⟩ | ⟨sizes, same⟩ <;>
      simp only [Behaviour.manner, same, Option.isSome_some, Option.isSome_none]
  allowed calls created q a given := by
    rcases respond_cases providers q with same | ⟨e, same⟩ | ⟨sizes, same⟩
    · cases (same calls created).symm.trans given
    · cases (same calls created).symm.trans given
      simp only [Manner.Allows, Behaviour.manner, same]
    · cases (same calls created).symm.trans given
      refine ⟨?_, fun x mem => mem_planned mem⟩
      simp only [Behaviour.manner, same, planned_units]

end SimulatedProvider

/-- A host answers late requests in the manner of its providers. -/
theorem Host.delivers_manner (h : Host) : h.Delivers h.behaviour.manner := by
  intro calls created q late told n
  refine ⟨?_, fun x mem => mem_planned mem⟩
  rcases SimulatedProvider.respond_cases h.providers q with same | ⟨e, same⟩ | ⟨sizes, same⟩
  · simp only [Behaviour.manner, behaviour, same, planned_units]
  · cases late.symm.trans (same calls created)
  · cases late.symm.trans (same calls created)

/-! ## Runs -/

section Confluent

variable {w : Wiring} {b : Behaviour} {m : Manner} {c : Chain HostLimiter}
  {start sys : System HostLimiter} {h : History HostLimiter}

/-- Reviews of different classes are confluent. If providers treat each class by itself and create
new capacity, then whatever the order in which the reviews of some classes take their steps, the
review of each class comes to the same: providers are asked the same about the class, in the same
order; its outcome is the same but for the identifier of the review; its units in flight, idle and
registered are the same, and so are the items that are linked. A pass over all classes with work
adds up these outcomes.

Every order leads to an end. Reviews take only so many steps and answers, and a review that is not
over takes a step by itself or waits for a provider. -/
theorem Run.reviews_confluent (tracker : w.tracker = .queue) (plain : c.Plain)
    (follows : b.Follows m) (orderly : start.Orderly) (idle : start.tasks = ∅)
    (own : ∀ id e, start.site.queue.items.find? id = some e → e.item.id = id)
    (run : Run w b c .undisturbed start h sys) (answers : h.Follows m) (single : sys.Single)
    (new : start.site.AllNew sys.site.created) :
    (∀ {h' sys'}, Run w b c .undisturbed start h' sys' → h'.Follows m → sys'.Single →
      start.site.AllNew sys'.site.created → ∀ {r t t' o o'},
        sys.tasks.find? t = some ⟨r, .done o⟩ → sys'.tasks.find? t' = some ⟨r, .done o'⟩ →
          sys.site.Agree start.site.queue r sys'.site ∧ o = { o' with review := o.review }) ∧
    (∀ host : Host, host.wiring = w → host.behaviour = b → host.chain = c → host.system = start →
      host.Delivers m → start.site.AllNew host.reviewAll.2.site.created →
        ∀ outcome : ResourceClass → Outcome, (∀ r ∈ start.site.queue.pendingClasses,
          ∃ t, sys.tasks.find? t = some ⟨r, .done (outcome r)⟩) →
            (∀ r ∈ start.site.queue.pendingClasses,
              sys.site.Agree start.site.queue r host.reviewAll.2.site) ∧
            host.reviewAll.1 = ⟨UInt32.ofNat start.site.queue.pendingClasses.length,
              Count.satSum
                (start.site.queue.pendingClasses.map fun r => (outcome r).unitsRequested),
              Count.satSum
                (start.site.queue.pendingClasses.map fun r => (outcome r).unsatisfied)⟩) ∧
    (h.countP fun e => e.2.task?.isSome) ≤ sys.tasks.size * (c.asks + 6) ∧
    ∀ {t r φ}, sys.tasks.find? t = some ⟨r, φ⟩ →
      (∃ o, φ = .done o) ∨ (∃ sys', sys.step w b c t = some sys') ∨
        ∃ q, sys.request? t = some q := by
  have classed := Queue.classed_classOf own
  have parted := run.parted tracker plain follows classed orderly idle answers single new
  -- Any other run has walked the same ways.
  have agree : ∀ {h' sys'}, Run w b c .undisturbed start h' sys' → h'.Follows m → sys'.Single →
      start.site.AllNew sys'.site.created → ∀ {r t t' o o'},
        sys.tasks.find? t = some ⟨r, .done o⟩ → sys'.tasks.find? t' = some ⟨r, .done o'⟩ →
          sys.site.Agree start.site.queue r sys'.site ∧ o = { o' with review := o.review } := by
    intro h' sys' run' answers' single' new' r t t' o o' done done'
    have parted' := run'.parted tracker plain follows classed orderly idle answers' single' new'
    exact parted.agree tracker plain follows classed parted' new new' done done'
  have few := Nat.le_of_add_right_le (run.own_actions_le plain orderly idle)
  refine ⟨agree, ?_, few, fun found => run.goes_on orderly idle single found⟩
  rintro host rfl rfl rfl rfl delivers new' outcome done
  obtain ⟨sys', outcomes, reached, site, stats, ended⟩ :=
    host.reviewAll_reaches plain delivers orderly idle
  obtain ⟨h', run', answers'⟩ := reached.run
  rw [site] at new'
  have same := ((List.forall₂_and_left _ _).2 ⟨done, ended⟩).imp
    fun r o ⟨⟨t, found⟩, t', found'⟩ => agree run' answers' reached.single new' found found'
  obtain ⟨agrees, outcomes_eq⟩ := (List.forall₂_and_left _ _).1 same
  have sums : ∀ f : Outcome → Count, (∀ o id, f { o with review := id } = f o) →
      outcomes.map f = host.system.site.queue.pendingClasses.map fun r => f (outcome r) := by
    intro f blind
    have equal : List.Forall₂ (· = ·)
        (host.system.site.queue.pendingClasses.map fun r => f (outcome r)) (outcomes.map f) := by
      rw [List.forall₂_map_left_iff, List.forall₂_map_right_iff]
      refine outcomes_eq.imp fun r o same => ?_
      rw [same, blind]
    rw [List.forall₂_eq_eq_eq] at equal
    exact equal.symm
  refine ⟨fun r mem => site ▸ agrees r mem, ?_⟩
  rw [stats, ReviewStats.foldl_add_empty, ← ended.length_eq, sums (·.unitsRequested) fun _ _ => rfl,
    sums (·.unsatisfied) fun _ _ => rfl]
  rfl

end Confluent

/-! ## Reviews of two classes -/

instance (m : Manner) (told : List Heard) (q : Request) (a : Answer) :
    Decidable (m.Allows told q a) :=
  match a with
  | .error _ => inferInstanceAs (Decidable (m.sizes q told = none))
  | .ok planned => inferInstanceAs (Decidable (m.sizes q told = some (planned.map (·.units)) ∧
      ∀ p ∈ planned, p.provider = q.provider.id ∧ p.resource = q.resource))

/-- Whether reviews that waited got answers in this manner. -/
def History.inManner (m : Manner) (h : History HostLimiter) : Bool :=
  h.all fun (sys, a) =>
    match a with
    | .answer t a => (sys.request? t).all fun q =>
        decide (m.Allows (heard sys.site.calls q.provider.id q.resource) q a)
    | _ => true

theorem History.follows_of_inManner {m : Manner} {h : History HostLimiter}
    (checked : h.inManner m = true) : h.Follows m := by
  intro sys t a q mem asked
  have here := List.all_eq_true.1 checked _ mem
  simp only [asked, Option.all_some, decide_eq_true_eq] at here
  exact here

/-- No class has two tasks if the list of the classes of all tasks has no duplicates. -/
theorem System.single_of_nodup {L : Type} {sys : System L}
    (once : (sys.tasks.entries.map fun e => e.2.resource).Nodup) : sys.Single := by
  intro r t t' φ ψ found found'
  have same := List.inj_on_of_nodup_map once (Table.find?_eq_some_iff.1 found)
    (Table.find?_eq_some_iff.1 found') rfl
  exact congrArg Prod.fst same

namespace Sample

def gpu : ResourceClass := .label "gpu"

/-- Two items without a label and one with a label wait. The first provider may hold a unit for
either class, the second one only for items without a label. -/
def mixed : Host :=
  let ceilings := [(1, .unlabeled), (2, .unlabeled), (1, gpu)].foldl
    (fun (t : Table Slot Count) (p, r) => t.insert ⟨(provider p).id, r⟩ 1) ∅
  let items : List WorkItem := [item 1, { item 2 with resource := gpu }, item 3]
  let wiring : Wiring := { fastPath := false, trigger := none }
  let providers : List SimulatedProvider :=
    [⟨provider 1, .plain .none true⟩, ⟨provider 2, .plain .none true⟩]
  let quiet : Site HostLimiter := { limiter := ⟨{ ceilings }, .enforcing⟩, line := .ofCapacity 1 }
  let submit := Site.submitBuildable wiring (SimulatedProvider.behaviour providers)
  { wiring
    chain := [.engine { providers := [provider 1, provider 2] }, .fallback]
    providers
    system := { site := items.foldl (fun s x => submit x s) quiet } }

/-- A provider creates one unit, the `n`-th capacity of all. -/
def unit (n : Nat) (p : Nat) (r : ResourceClass) : Answer :=
  .ok [⟨.fresh n, (provider p).id, r, 1⟩]

/-- The classes are reviewed one after the other. -/
def inTurn : List Action :=
  [.call .unlabeled, .step 0, .step 0, .step 0, .answer 0 (unit 0 1 .unlabeled),
    .answer 0 (unit 1 2 .unlabeled), .step 0, .step 0,
    .call gpu, .step 1, .step 1, .step 1, .answer 1 (unit 2 1 gpu), .step 1, .step 1]

/-- The review of the labelled class begins first, and the other one goes on while it waits. -/
def mingled : List Action :=
  [.call gpu, .call .unlabeled, .step 1, .step 0, .step 0, .step 0, .step 1, .step 1,
    .answer 1 (unit 0 1 .unlabeled), .answer 0 (unit 1 1 gpu), .answer 1 (unit 2 2 .unlabeled),
    .step 0, .step 1, .step 0, .step 1]

theorem mixed_plain : mixed.chain.Plain := by
  intro name ordinal apply mem
  rcases List.mem_cons.1 mem with e | mem
  · cases e
  · cases List.mem_singleton.1 mem

theorem mixed_steady : ∀ s ∈ mixed.providers, s.conduct.Steady := by
  intro s mem
  rcases List.mem_cons.1 mem with rfl | mem
  · trivial
  · cases List.mem_singleton.1 mem
    trivial

theorem mixed_entries : ∀ id e, mixed.site.queue.items.find? id = some e →
    e.item.id = id ∧ e.link = none := by
  have each : ∀ x ∈ mixed.site.queue.items.entries, x.2.item.id = x.1 ∧ x.2.link = none := by
    decide
  exact fun id e found => each _ (Table.find?_eq_some_iff.1 found)

/-- Capacity is new if its identifiers are different, since there is none at the start. -/
theorem mixed_allNew {created : List PlannedCapacity} (once : (created.map (·.id)).Nodup) :
    mixed.site.AllNew created where
  once := once
  inFlight _ _ := rfl
  usage _ _ := rfl
  links p _ id linked := by
    obtain ⟨e, found, linked⟩ := Option.bind_eq_some_iff.1 linked
    rw [(mixed_entries id e found).2] at linked
    cases linked

/-- Actions without moves, whose answers are in the manner of the providers, make a run. -/
theorem mixed_run {actions : List Action} {h : History HostLimiter} {sys : System HostLimiter}
    (replayed : mixed.system.replay mixed.wiring mixed.behaviour mixed.chain actions [] =
      some (h, sys))
    (calm : actions.all (fun a => match a with | .move _ => false | _ => true) = true) :
    Run mixed.wiring mixed.behaviour mixed.chain .undisturbed mixed.system h sys := by
  refine Run.of_replay replayed .start fun a mem sys => ?_
  have here := List.all_eq_true.1 calm a mem
  cases a with
  | move => cases here
  | answer => exact fun _ _ => trivial
  | call | callAll | receive | step => trivial

end Sample

/-- Reviews one after the other, mingled, and in a pass of the host. -/
theorem confluent_of_sample : ∃ h h' sys sys' o o',
    Run Sample.mixed.wiring Sample.mixed.behaviour Sample.mixed.chain .undisturbed
      Sample.mixed.system h sys ∧
    Run Sample.mixed.wiring Sample.mixed.behaviour Sample.mixed.chain .undisturbed
      Sample.mixed.system h' sys' ∧
    sys.tasks.find? 1 = some ⟨Sample.gpu, .done o⟩ ∧
    sys'.tasks.find? 0 = some ⟨Sample.gpu, .done o'⟩ ∧
    o.unitsRequested = 1 ∧ o.review ≠ o'.review ∧ o = { o' with review := o.review } ∧
    sys.site.Agree Sample.mixed.site.queue Sample.gpu sys'.site ∧
    sys.site.Agree Sample.mixed.site.queue Sample.gpu Sample.mixed.reviewAll.2.site ∧
    Sample.mixed.reviewAll.1 = ⟨2, 3, 0⟩ := by
  obtain ⟨h, sys, o₁, o, replayed, answers, single, once, found₁, found, counts, review⟩ :
      ∃ h sys o₁ o, Sample.mixed.system.replay Sample.mixed.wiring Sample.mixed.behaviour
        Sample.mixed.chain Sample.inTurn [] = some (h, sys) ∧
      h.inManner Sample.mixed.behaviour.manner = true ∧
      (sys.tasks.entries.map fun e => e.2.resource).Nodup ∧ (sys.site.created.map (·.id)).Nodup ∧
      sys.tasks.find? 0 = some ⟨.unlabeled, .done o₁⟩ ∧
      sys.tasks.find? 1 = some ⟨Sample.gpu, .done o⟩ ∧
      (o₁.unitsRequested = 2 ∧ o.unitsRequested = 1 ∧ o₁.unsatisfied = 0 ∧ o.unsatisfied = 0) ∧
      o.review = .fresh 1 :=
    ⟨_, _, _, _, rfl, rfl, by decide, by decide, rfl, rfl, by decide, rfl⟩
  obtain ⟨h', sys', o', replayed', answers', single', once', found', review'⟩ :
      ∃ h' sys' o', Sample.mixed.system.replay Sample.mixed.wiring Sample.mixed.behaviour
        Sample.mixed.chain Sample.mingled [] = some (h', sys') ∧
      h'.inManner Sample.mixed.behaviour.manner = true ∧
      (sys'.tasks.entries.map fun e => e.2.resource).Nodup ∧
      (sys'.site.created.map (·.id)).Nodup ∧
      sys'.tasks.find? 0 = some ⟨Sample.gpu, .done o'⟩ ∧ o'.review = .fresh 0 :=
    ⟨_, _, _, rfl, rfl, by decide, by decide, rfl, rfl⟩
  have run := Sample.mixed_run replayed rfl
  have run' := Sample.mixed_run replayed' rfl
  have classes : Sample.mixed.system.site.queue.pendingClasses = [.unlabeled, Sample.gpu] := rfl
  have passed : (Sample.mixed.reviewAll.2.site.created.map (·.id)).Nodup := by decide
  have orderly : Sample.mixed.system.Orderly := .quiet _
  obtain ⟨agree, pass, -⟩ := Run.reviews_confluent rfl Sample.mixed_plain
    (SimulatedProvider.follows_manner Sample.mixed_steady) orderly rfl
    (fun id e found => (Sample.mixed_entries id e found).1) run
    (History.follows_of_inManner answers) (System.single_of_nodup single)
    (Sample.mixed_allNew once)
  obtain ⟨agrees, outcomes⟩ := agree run' (History.follows_of_inManner answers')
    (System.single_of_nodup single') (Sample.mixed_allNew once') found found'
  have ended : ∀ r ∈ Sample.mixed.system.site.queue.pendingClasses, ∃ t,
      sys.tasks.find? t = some ⟨r, .done (if r = .unlabeled then o₁ else o)⟩ := by
    rw [classes]
    intro r mem
    rcases List.mem_cons.1 mem with rfl | mem
    · exact ⟨0, found₁⟩
    · cases List.mem_singleton.1 mem
      exact ⟨1, found⟩
  obtain ⟨same, sums⟩ := pass Sample.mixed rfl rfl rfl rfl (Host.delivers_manner _)
    (Sample.mixed_allNew passed) _ ended
  refine ⟨h, h', sys, sys', o, o', run, run', found, found', counts.2.1, ?_, outcomes, agrees,
    ?_, ?_⟩
  · rw [review, review']
    decide
  · exact same _ (by rw [classes]; exact List.mem_cons_of_mem _ List.mem_cons_self)
  · obtain ⟨units₁, units, lacks₁, lacks⟩ := counts
    rw [sums, classes]
    show (⟨2, Count.satSum [o₁.unitsRequested, o.unitsRequested],
      Count.satSum [o₁.unsatisfied, o.unsatisfied]⟩ : ReviewStats) = _
    rw [units₁, units, lacks₁, lacks]
    rfl

end Muster
