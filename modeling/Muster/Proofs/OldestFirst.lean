import Muster.Proofs.Allocation
import Muster.Proofs.Reports

/-!
# Reviews link the oldest items

A review that nobody interferes with takes answer after answer, at once or after a wait. Whatever
the chain of engines and however the answers are cut, it has always given out the units that it has
planned as if they had come in one answer, in its own list of items and in the queue alike. This is
the invariant, `Site.Allots`; what it means for the queue is the subject of
`Muster.Proofs.Allocation`.

**Main statements.** `Site.Undisturbed.allots`: the invariant along the chain;
`Run.review_links_oldest`: the links once the review is over.
-/

namespace Muster

variable {L : Type}

/-! ## While a review is under way -/

/-- A review of the class `r`, begun on the site `start`, has given the units it has planned to the
items of its snapshot, and has reported the links. -/
structure Site.Allots (start : Site L) (r : ResourceClass) (s : Site L) (st : ReviewState) :
    Prop where
  knows : ∃ d, st.Only r d ∧ d.items = (ReviewState.linkUnits
    (st.planned.map fun p => (p.id, p.units.toNat)) (start.queue.snapshot r).items).1
  queue : s.queue = start.queue.run ((ReviewState.linkUnits
    (st.planned.map fun p => (p.id, p.units.toNat)) (start.queue.snapshot r).items).2.map .track)
  among : st.planned.Sublist (s.created.drop start.created.length)
  created : start.created <+: s.created

namespace Site.Allots

variable {w : Wiring} {start s : Site L} {r : ResourceClass} {st : ReviewState}

theorem opened (start : Site L) (r : ResourceClass) :
    start.Allots r (Cycle.opened r start) (Cycle.captured r start) := by
  have nothing := ReviewState.linkUnits_nil (start.queue.snapshot r).items
  constructor
  case knows => exact ⟨_, .captured r start, (congrArg Prod.fst nothing).symm⟩
  case queue =>
    show start.queue = start.queue.run ((ReviewState.linkUnits [] _).2.map .track)
    rw [nothing]
    rfl
  case among => exact List.nil_sublist _
  case created => exact List.prefix_refl _

/-- Calls of providers and look-ups of limits do not matter. -/
theorem look (h : start.Allots r s st) (calls : List Call) (budget : Budget Slot) :
    start.Allots r { s with calls } { st with budget } :=
  ⟨h.knows, h.queue, h.among, h.created⟩

theorem emit (h : start.Allots r s st) (e : Event) : start.Allots r (s.emit w e) st := by
  obtain ⟨journal, same⟩ := s.emit_frame w e
  rw [same]
  exact ⟨h.knows, h.queue, h.among, h.created⟩

/-- Capacity that was created lies behind that which was there before. -/
theorem drop_created (h : start.Allots r s st) (planned : List PlannedCapacity) :
    (s.created ++ planned).drop start.created.length =
      s.created.drop start.created.length ++ planned := by
  obtain ⟨before, same⟩ := h.created
  rw [← same, List.append_assoc, List.drop_left, List.drop_left]

/-- Capacity that is accepted is given to the next items, on both sides. -/
theorem plan (h : start.Allots r s st) (tracker : w.tracker = .queue) (p : ProviderId)
    (planned : List PlannedCapacity) (s' : Site L) (queue : s'.queue = s.queue)
    (created : s'.created = s.created ++ planned) :
    start.Allots r ((st.recordPlanned r p planned).1.foldl (Site.track w) s')
      (st.recordPlanned r p planned).2 := by
  obtain ⟨d, only, items⟩ := h.knows
  have portions := ReviewState.linkUnits_append
    (st.planned.map fun p => (p.id, p.units.toNat)) (planned.map fun p => (p.id, p.units.toNat))
    (start.queue.snapshot r).items
  rw [← List.map_append, ← items] at portions
  have grown : ((st.recordPlanned r p planned).1.foldl (Site.track w) s').created =
      s.created ++ planned := (Site.tracks_created w _ s').trans created
  constructor
  case knows =>
    refine ⟨_, only.recordPlanned p planned, ?_⟩
    rw [ReviewState.planned_recordPlanned, portions]
  case queue =>
    rw [Site.tracks_eq_run tracker, queue, h.queue, only.links, ← Queue.run_append,
      ← List.map_append, ReviewState.planned_recordPlanned, portions]
  case among =>
    rw [ReviewState.planned_recordPlanned, grown, h.drop_created]
    exact h.among.append (List.Sublist.refl _)
  case created =>
    rw [grown]
    exact h.created.trans (List.prefix_append _ _)

variable [Limiter L]

theorem accept (h : start.Allots r s st) (tracker : w.tracker = .queue) {q : Request} {a : Answer}
    (hr : q.resource = r) :
    start.Allots r (Engine.accept w q a s st).1 (Engine.accept w q a s st).2 := by
  cases a with
  | error e => exact h.emit _
  | ok planned =>
    subst hr
    simp only [Engine.accept]
    by_cases none : PlannedCapacity.totalUnits planned = 0
    · rw [if_pos none]
      refine ⟨h.knows, h.queue, ?_, h.created.trans (List.prefix_append _ _)⟩
      show st.planned.Sublist ((s.created ++ planned).drop _)
      rw [h.drop_created]
      exact h.among.trans (List.sublist_append_left _ _)
    · rw [if_neg none]
      let next : Site L := { s with
        created := s.created ++ planned
        limiter := planned.foldl Engine.register s.limiter }
      exact emit (h.plan tracker q.provider.id planned next rfl rfl) _

/-- A review keeps to its allotment. -/
theorem lockstep {b : Behaviour} {c : Chain L} (tracker : w.tracker = .queue)
    (fails : c.OnlyFails) (start : Site L) (r : ResourceClass) :
    Lockstep w b c r (fun _ _ _ a a' => a = a') (fun _ => True)
      (fun _ x y => x = y ∧ start.Allots r x.1 x.2) where
  adds := fails.onlyCreates
  early _ _ := trivial
  keys := by
    rintro n x _ ⟨rfl, h⟩
    obtain ⟨d, only, -⟩ := h.knows
    exact ⟨only.keys, only.keys⟩
  unsatisfied := by
    rintro n x _ ⟨rfl, -⟩
    rfl
  consult := by
    rintro n s st _ _ e p - - ⟨same, h⟩
    cases same
    obtain ⟨calls, budget, looked⟩ := e.consult_frame b r p s st
    refine ⟨rfl, rfl, ?_⟩
    rw [looked]
    exact h.look calls budget
  ask := by
    rintro n s st _ _ q - ⟨same, h⟩
    cases same
    refine ⟨⟨rfl, h.look _ st.budget⟩, rfl, ?_⟩
    exact fun a a' given given' => Option.some.inj (given.symm.trans given')
  accept := by
    rintro n s st _ _ q a _ hr ⟨same, h⟩ rfl - -
    cases same
    exact ⟨rfl, h.accept tracker hr⟩
  custom := by
    rintro n s st _ _ name ordinal apply mem ⟨same, h⟩
    cases same
    obtain ⟨e, failed⟩ := fails name ordinal apply mem b s st
    rw [failed]
    exact ⟨rfl, h.emit _⟩

end Site.Allots

/-! ## Reviews that nobody interferes with -/

/-- How far the chain of a review of the class `r` may get that begins on the site `start`, if
nothing else happens while it waits for answers. -/
inductive Site.Undisturbed [Limiter L] (w : Wiring) (b : Behaviour) (c : Chain L) (start : Site L)
    (r : ResourceClass) : ChainProgress L → Prop
  | begun : Undisturbed w b c start r
      (c.run w b {} (Cycle.opened r start) (Cycle.captured r start))
  | answered {s st cursor} (a : Answer) : Undisturbed w b c start r (.waiting s st cursor) →
      Undisturbed w b c start r (cursor.resume w b a s st)

/-- How far the review of a class has got that nobody interferes with. -/
def Site.LeftAlone [Limiter L] (w : Wiring) (b : Behaviour) (c : Chain L) (start : Site L)
    (r : ResourceClass) (s : Site L) : Option (Cycle L) → Prop
  | none => s = start
  | some (.waiting st cursor) => start.Undisturbed w b c r (.waiting s st cursor)
  | some (.finished o) => ∃ s' st t, start.Undisturbed w b c r (.finished s' st t) ∧
      Cycle.conclude w r s' st t = (s, .finished o)

section Runs

variable [Limiter L] {w : Wiring} {b : Behaviour} {c : Chain L} {start s : Site L}
  {r : ResourceClass}

/-- However far it gets, such a review keeps to its allotment. -/
theorem Site.Undisturbed.allots (tracker : w.tracker = .queue) (fails : c.OnlyFails)
    {g : ChainProgress L} (h : start.Undisturbed w b c r g) :
    ChainProgress.InStep b c r (fun _ x y => x = y ∧ start.Allots r x.1 x.2) g g := by
  have lock := Allots.lockstep (b := b) tracker fails start r
  induction h with
  | begun =>
    exact lock.run c (fun _ hx => hx) rfl (Nat.le_of_eq (Nat.zero_add _)) ⟨rfl, .opened start r⟩
      trivial trivial
  | answered a _ ih =>
    cases ih with
    | waiting follows h => exact lock.cursor_resume follows h rfl trivial trivial

theorem Site.Undisturbed.leftAlone {g : ChainProgress L} (h : start.Undisturbed w b c r g)
    {cycle : Cycle L} (settled : Cycle.settle w r g = (s, cycle)) :
    start.LeftAlone w b c r s (some cycle) := by
  cases g with
  | waiting s st cursor =>
    cases settled
    exact h
  | finished s st t =>
    cases settled
    exact ⟨s, st, t, h, rfl⟩

theorem Site.LeftAlone.act {a : Action} {x y : Site L × Option (Cycle L)}
    (reviews : System.Reviews w b c r a x y) (h : start.LeftAlone w b c r x.1 x.2) :
    start.LeftAlone w b c r y.1 y.2 := by
  cases reviews with
  | still => exact h
  | @begin s s' cycle begun =>
    obtain rfl : s = start := h
    exact Undisturbed.leftAlone .begun begun
  | resume acted resumed => exact (Undisturbed.answered _ h).leftAlone resumed

/-- What a review that nobody interferes with leaves behind when it ends. -/
theorem Site.Undisturbed.concluded (tracker : w.tracker = .queue) (fails : c.OnlyFails)
    (filed : start.queue.Filed) {st : ReviewState} {t : Tally} {s' : Site L} {o : Outcome}
    (h : start.Undisturbed w b c r (.finished s st t))
    (concluded : Cycle.conclude w r s st t = (s', .finished o))
    (fresh : ∀ p ∈ s'.created.drop start.created.length, ∀ id,
      start.queue.linkOf id ≠ some p.id) :
    ∃ d, st.Only r d ∧ start.queue.OldestFirst r st.planned d.items s'.queue := by
  cases h.allots tracker fails with
  | finished failed few allots =>
    obtain ⟨-, ⟨d, only, items⟩, queue, among, -⟩ := allots
    obtain ⟨journal, same⟩ := Cycle.conclude_frame w r s st t
    obtain rfl : { s with queue := s.queue.recordPending st.planned, journal } = s' :=
      same.symm.trans (congrArg Prod.fst concluded)
    refine ⟨d, only, ?_⟩
    have allotted : s.queue.recordPending st.planned = start.queue.allotted r st.planned := by
      rw [queue, ReviewState.links_linkUnits, ReviewState.unitIds_planned]
      rfl
    show start.queue.OldestFirst r st.planned d.items (s.queue.recordPending st.planned)
    rw [allotted, items]
    exact Queue.oldestFirst_allotted filed fun p mem => fresh p (among.mem mem)

variable {terms : Terms} {sys : System L} {h : History L}

/-- A review that runs alone is left alone. -/
theorem Run.leftAlone
    (run : Run w b c terms (System.spawn { site := start } r).2 h sys)
    (alone : ∀ e ∈ h, e.2.task? = some 0) :
    ∃ φ, sys.tasks.find? 0 = some ⟨r, φ⟩ ∧ start.LeftAlone w b c r sys.site φ.cycle? := by
  induction run with
  | start => exact ⟨.called, System.find?_put _ _ _ _, rfl⟩
  | @next h sys a sys' run allowed acted ih =>
    have own : a.task? = some 0 := alone (sys, a) (List.mem_append_right _ List.mem_cons_self)
    obtain ⟨φ, found, left⟩ := ih fun e mem => alone e (List.mem_append_left _ mem)
    obtain ⟨ψ, after, reviews⟩ := System.act_review acted own found
    exact ⟨ψ, after, left.act reviews⟩

/-- The oldest items first. A review that nobody interferes with, of any class and with any chain
of engines, gives the units it plans to the first items in line that have no link, capacity by
capacity in the order of acceptance. Links that count stay, and the queue shows the links that the
review knows. -/
theorem Run.review_links_oldest (tracker : w.tracker = .queue) (fails : c.OnlyFails)
    (reached : start.queue.Reached)
    (run : Run w b c terms (System.spawn { site := start } r).2 h sys)
    (alone : ∀ e ∈ h, e.2.task? = some 0)
    (fresh : ∀ p ∈ sys.site.created.drop start.created.length, ∀ id,
      start.queue.linkOf id ≠ some p.id) {o : Outcome} (done : sys.outcome? 0 = some o) :
    ∃ s st t d, start.Undisturbed w b c r (.finished s st t) ∧
      Cycle.conclude w r s st t = (sys.site, .finished o) ∧ st.Only r d ∧
      start.queue.OldestFirst r st.planned d.items sys.site.queue := by
  obtain ⟨φ, found, left⟩ := run.leftAlone alone
  simp only [System.outcome?, found, Option.bind_some, Task.outcome?] at done
  cases φ with
  | done o' =>
    cases done
    obtain ⟨s, st, t, chain, concluded⟩ := left
    obtain ⟨d, only, oldest⟩ := chain.concluded tracker fails reached.filed concluded fresh
    exact ⟨s, st, t, d, chain, concluded, only, oldest⟩
  | _ => cases done

end Runs

/-- Two items wait, and the first one has a link to capacity that is not in flight. -/
def Sample.outdated : Site StaticLimiter :=
  { Sample.busy with queue := Sample.busy.queue.run [.track ⟨.ofNat 1, .ofNat 9⟩] }

/-- The only unit that is delivered goes to the first item. -/
theorem oldest_of_sample : ∃ h sys o s st t d,
    Run Sample.wiring Sample.behaviour Sample.guarded {}
      (System.spawn { site := Sample.outdated } .unlabeled).2 h sys ∧
    sys.outcome? 0 = some o ∧ sys.site.queue.linkOf (.ofNat 1) = some (.fresh 0) ∧
    Sample.outdated.Undisturbed Sample.wiring Sample.behaviour Sample.guarded .unlabeled
      (.finished s st t) ∧
    Cycle.conclude Sample.wiring .unlabeled s st t = (sys.site, .finished o) ∧
    st.Only .unlabeled d ∧
    Sample.outdated.queue.OldestFirst .unlabeled st.planned d.items sys.site.queue := by
  obtain ⟨h, sys, o, done, created, finished, linked, own⟩ : ∃ h sys o,
      (System.spawn { site := Sample.outdated } .unlabeled).2.replay Sample.wiring Sample.behaviour
        Sample.guarded Sample.lone [] = some (h, sys) ∧
      sys.site.created = [⟨.fresh 0, .ofNat 1, .unlabeled, 1⟩] ∧ sys.outcome? 0 = some o ∧
      sys.site.queue.linkOf (.ofNat 1) = some (.fresh 0) ∧
      h.map (·.2.task?) = List.replicate 6 (some 0) :=
    ⟨_, _, _, rfl, rfl, rfl, rfl, rfl⟩
  have run : Run Sample.wiring Sample.behaviour Sample.guarded {}
      (System.spawn { site := Sample.outdated } .unlabeled).2 h sys :=
    Run.of_replay done .start fun a _ sys => Terms.allow_free sys a
  have alone : ∀ e ∈ h, e.2.task? = some 0 := fun e mem =>
    List.eq_of_mem_replicate (own ▸ List.mem_map_of_mem mem)
  have fresh : ∀ p ∈ sys.site.created.drop Sample.outdated.created.length, ∀ id,
      Sample.outdated.queue.linkOf id ≠ some p.id := by
    rw [created]
    intro p mem id same
    obtain rfl := List.mem_singleton.1 mem
    obtain ⟨e, found, link⟩ := Option.bind_eq_some_iff.1 same
    have other : ∀ e ∈ Sample.outdated.queue.items.values, e.link ≠ some (.fresh 0) := by decide
    exact other e (Table.mem_values.2 ⟨id, found⟩) link
  have reached : Sample.outdated.queue.Reached := ⟨[
    .submitBuildable (Sample.item 1), .submitBuildable (Sample.item 2),
    .track ⟨.ofNat 1, .ofNat 9⟩], rfl⟩
  obtain ⟨s, st, t, d, chain, concluded, only, oldest⟩ := Run.review_links_oldest rfl
    Sample.guarded_onlyFails reached run alone fresh finished
  exact ⟨h, sys, o, s, st, t, d, run, finished, linked, chain, concluded, only, oldest⟩

end Muster
