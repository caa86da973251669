import Muster.Proofs.Facets

/-!
# Reviews of different classes do not meet

Reviews of different classes may run side by side or one after the other: each of them does the same
in any case. What a review does next is decided by the facet that its class has of the site, and no
other review changes this facet. So the review of a class is a walk from view to view that can go
only one way, and all runs in which it comes to its end end with the same view.

**Main statements.** `Walk.unique`: the walk goes only one way. `Run.parted`: in a run every review
has walked its own way. `System.Parted.agree`: so what the review of a class comes to does not
depend on the run.
-/

namespace Muster

open Relation

/-! ## What decides -/

/-- What decides how a review goes on: the demand, the budget, and the sizes of what it has planned.
Identifiers of capacity are left out. -/
@[ext]
structure Sketch where
  demand : Option (List (WorkItemId × Bool) × CapacityCounts)
  budget : Budget Slot
  sizes : List Count

namespace ReviewState

/-- What decides how the review of the class `r` goes on. -/
def sketch (st : ReviewState) (r : ResourceClass) : Sketch where
  demand := (st.classes.find? r).map fun d => (marked d.items, d.counts)
  budget := st.budget
  sizes := st.planned.map (·.units)

variable {st st' : ReviewState} {r : ResourceClass} {d d' : ClassDemand}

theorem unsatisfied_of_sketch (h : st.sketch r = st'.sketch r) :
    st.unsatisfied r = st'.unsatisfied r := by
  have shortfall : ∀ st : ReviewState, st.unsatisfied r =
      ((st.sketch r).demand.map (·.2.shortfall)).getD 0 := by
    intro st
    simp only [unsatisfied, sketch, Option.map_map]
    cases st.classes.find? r <;> rfl
  rw [shortfall, shortfall, h]

theorem totalUnits_of_sizes {planned planned' : List PlannedCapacity}
    (h : planned.map (·.units) = planned'.map (·.units)) :
    PlannedCapacity.totalUnits planned = PlannedCapacity.totalUnits planned' :=
  congrArg Count.satSum h

/-- Capacity of the same sizes leads to links for the same items. -/
theorem sketch_recordPlanned (only : st.Only r d) (only' : st'.Only r d')
    (h : st.sketch r = st'.sketch r) (p : ProviderId) {planned planned' : List PlannedCapacity}
    (sizes : planned.map (·.units) = planned'.map (·.units)) :
    (st.recordPlanned r p planned).2.sketch r = (st'.recordPlanned r p planned').2.sketch r ∧
      (st.recordPlanned r p planned).1.map (·.item) =
        (st'.recordPlanned r p planned').1.map (·.item) := by
  have demand := congrArg Sketch.demand h
  simp only [sketch, only.find?, only'.find?, Option.map_some, Option.some.injEq,
    Prod.mk.injEq] at demand
  have units : (planned.map fun p => (p.id, p.units.toNat)).map Prod.snd =
      (planned'.map fun p => (p.id, p.units.toNat)).map Prod.snd := by
    have same := congrArg (List.map UInt32.toNat) sizes
    rw [List.map_map, List.map_map] at same ⊢
    exact same
  obtain ⟨marks, links⟩ := linkUnits_marked units demand.1
  have total := totalUnits_of_sizes sizes
  have budget : st.budget = st'.budget := congrArg Sketch.budget h
  have before : st.planned.map (·.units) = st'.planned.map (·.units) := congrArg Sketch.sizes h
  refine ⟨Sketch.ext ?_ ?_ ?_, ?_⟩
  · simp only [sketch, (only.recordPlanned p planned).find?,
      (only'.recordPlanned p planned').find?, Option.map_some, marks, demand.2, total]
  · simp only [sketch, budget_recordPlanned, total, budget]
  · simp only [sketch, planned_recordPlanned, List.map_append, before, sizes]
  · rw [only.links, only'.links, links]

end ReviewState

/-- What is in use is what is held, as far as that fits. -/
theorem StaticLimiter.inUse_congr {l l' : StaticLimiter} {p : ProviderId} {r : ResourceClass}
    (h : l.held ⟨p, r⟩ = l'.held ⟨p, r⟩) : l.inUse p r = l'.inUse p r := by
  refine UInt32.toNat_inj.1 ?_
  rw [inUse, inUse, Count.toNat_total, Count.toNat_total]
  exact congrArg (· % 4294967296) h

theorem HostLimiter.remaining_congr {l l' : HostLimiter} {p : ProviderId} {r : ResourceClass}
    (mode : l.mode = l'.mode) (ceilings : l.ceilings.ceilings = l'.ceilings.ceilings)
    (inUse : l.ceilings.inUse p r = l'.ceilings.inUse p r) :
    Limiter.remaining l p r = Limiter.remaining l' p r := by
  have static : l.ceilings.remaining p r = l'.ceilings.remaining p r := by
    simp only [StaticLimiter.remaining, ceilings, inUse]
  simp only [Limiter.remaining, mode, static]

theorem Manner.Allows.ofClass {m : Manner} {told : List Heard} {q : Request} {a : Answer}
    (h : m.Allows told q a) : Answer.OfClass q a := by
  cases a with
  | error e => trivial
  | ok planned => exact fun p mem => (h.2 p mem).2

/-! ## Reviews of one class on two sites -/

section Peers

variable {classOf : WorkItemId → ResourceClass} {start ref ref' s s' : Site HostLimiter}
  {r : ResourceClass} {st st' : ReviewState} {w : Wiring} {b : Behaviour} {m : Manner}
  {c : Chain HostLimiter}

open Site

/-- Two reviews of the class `r` see the same of their sites and know the same. -/
structure Peers (classOf : WorkItemId → ResourceClass) (start ref ref' : Site HostLimiter)
    (r : ResourceClass) (x y : Site HostLimiter × ReviewState) : Prop where
  left : Own classOf start ref r x
  right : Own classOf start ref' r y
  facet : start.facet classOf r x.1 = start.facet classOf r y.1
  sketch : x.2.sketch r = y.2.sketch r

/-- A call for the class is not heard in other classes. -/
theorem Site.Own.call (h : Own classOf start ref r (s, st)) {call : Call}
    (hr : call.resource = r) :
    Own classOf start ref r ({ s with calls := s.calls ++ [call] }, st) where
  grown := ⟨h.grown.created, h.grown.mode, h.grown.ceilings, h.grown.items, h.grown.available,
    h.grown.usage, h.grown.inFlight, h.grown.kept⟩
  working := ⟨h.working.only, h.working.classed, h.working.among, h.working.ofClass,
    h.working.links, h.working.inFlight⟩
  others r' other := by
    refine (h.others r' other).trans ⟨fun p => ?_, fun _ _ _ => Iff.rfl, fun _ _ _ => Iff.rfl,
      fun _ _ => rfl⟩
    rw [heard_concat, if_neg fun here => other (here.2.symm.trans hr), List.append_nil]

theorem Site.Own.withBudget (h : Own classOf start ref r (s, st)) (budget : Budget Slot) :
    Own classOf start ref r (s, { st with budget }) where
  grown := h.grown
  working := ⟨h.working.only, h.working.classed, h.working.among, h.working.ofClass,
    h.working.links, h.working.inFlight⟩
  others := h.others

namespace Peers

variable {x y : Site HostLimiter × ReviewState}

theorem heard (h : Peers classOf start ref ref' r x y) (p : ProviderId) :
    Muster.heard x.1.calls p r = Muster.heard y.1.calls p r :=
  congrFun (congrArg Facet.heard h.facet) p

theorem call (h : Peers classOf start ref ref' r (s, st) (s', st')) {call call' : Call}
    (hr : call.resource = r) (hr' : call'.resource = r) (provider : call.provider = call'.provider)
    (question : call.question.heard = call'.question.heard) :
    Peers classOf start ref ref' r ({ s with calls := s.calls ++ [call] }, st)
      ({ s' with calls := s'.calls ++ [call'] }, st') where
  left := h.left.call hr
  right := h.right.call hr'
  facet := by
    obtain ⟨heard, held, moved, inFlight⟩ := Facet.ext_iff.1 h.facet
    refine Facet.ext (funext fun p => ?_) held moved inFlight
    show Muster.heard (s.calls ++ [call]) p r = Muster.heard (s'.calls ++ [call']) p r
    rw [heard_concat, heard_concat, h.heard p, hr, hr', provider, question]
  sketch := h.sketch

theorem readLimit (h : Peers classOf start ref ref' r (s, st) (s', st')) (p : ProviderId) :
    Engine.readLimit s ⟨p, r⟩ = Engine.readLimit s' ⟨p, r⟩ := by
  have inUse : s.limiter.ceilings.inUse p r = s'.limiter.ceilings.inUse p r :=
    StaticLimiter.inUse_congr (congrFun (congrArg Facet.held h.facet) p)
  have same := HostLimiter.remaining_congr (h.left.grown.mode.trans h.right.grown.mode.symm)
    (h.left.grown.ceilings.trans h.right.grown.ceilings.symm) inUse
  simp only [Engine.readLimit]
  rw [show Limiter.remaining s.limiter p r = _ from same]

/-- What is left of a limit is the same, and so is what it makes of the budgets. -/
theorem lookUp (h : Peers classOf start ref ref' r (s, st) (s', st')) (p : ProviderId) :
    grant (st.unsatisfied r) (st.remainingLimit ⟨p, r⟩ (Engine.readLimit s ⟨p, r⟩)).1 =
      grant (st'.unsatisfied r) (st'.remainingLimit ⟨p, r⟩ (Engine.readLimit s' ⟨p, r⟩)).1 ∧
    Peers classOf start ref ref' r
      (s, (st.remainingLimit ⟨p, r⟩ (Engine.readLimit s ⟨p, r⟩)).2)
      (s', (st'.remainingLimit ⟨p, r⟩ (Engine.readLimit s' ⟨p, r⟩)).2) := by
  have budget : st.budget = st'.budget := congrArg Sketch.budget h.sketch
  have lacks : st.unsatisfied r = st'.unsatisfied r := ReviewState.unsatisfied_of_sketch h.sketch
  simp only [ReviewState.remainingLimit, budget, lacks, h.readLimit p, true_and]
  obtain ⟨demand, -, sizes⟩ := Sketch.ext_iff.1 h.sketch
  exact ⟨h.left.withBudget _, h.right.withBudget _, h.facet, Sketch.ext demand rfl sizes⟩

/-- A look at a provider comes to the same. -/
theorem consult (h : Peers classOf start ref ref' r (s, st) (s', st')) (follows : b.Follows m)
    (e : Engine) (p : Provider) :
    (e.consult b r p s st).1 = (e.consult b r p s' st').1 ∧
      Peers classOf start ref ref' r (e.consult b r p s st).2 (e.consult b r p s' st').2 := by
  by_cases pass : (p.serves r && e.filter p r) = true
  · have answer : b.headroom s.calls p r (st.plannedFor p.id) =
        b.headroom s'.calls p r (st'.plannedFor p.id) := by
      rw [follows.headroom, follows.headroom, h.heard p.id]
    have asked : Peers classOf start ref ref' r
        ((s.askHeadroom b (some st.review) p r (st.plannedFor p.id)).2, st)
        ((s'.askHeadroom b (some st'.review) p r (st'.plannedFor p.id)).2, st') :=
      h.call rfl rfl rfl rfl
    simp only [Engine.consult, Engine.isEligible, if_pos pass, askHeadroom, answer] at asked ⊢
    generalize b.headroom s'.calls p r (st'.plannedFor p.id) = said at asked ⊢
    rcases said with error | yes
    · exact ⟨rfl, asked⟩
    cases yes with
    | false => exact ⟨rfl, asked⟩
    | true => exact asked.lookUp p.id
  · simp only [Engine.consult, Engine.isEligible, if_neg pass]
    exact ⟨trivial, h⟩

/-- Requests are answered at once on both sites or on neither, and in the same manner. -/
theorem ask (h : Peers classOf start ref ref' r (s, st) (s', st')) (follows : b.Follows m)
    {q : Request} (hr : q.resource = r) :
    let x := s.askCapacity b (some st.review) q
    let y := s'.askCapacity b (some st'.review) q
    Peers classOf start ref ref' r (x.2, st) (y.2, st') ∧ x.1.isSome = y.1.isSome ∧
      (∀ a, x.1 = some a → m.Allows (Muster.heard x.2.calls q.provider.id q.resource) q a) ∧
      ∀ a, y.1 = some a → m.Allows (Muster.heard y.2.calls q.provider.id q.resource) q a := by
  subst hr
  have told : ∀ (s : Site HostLimiter) (st : ReviewState),
      Muster.heard (s.askCapacity b (some st.review) q).2.calls q.provider.id q.resource =
        Muster.heard s.calls q.provider.id q.resource ++ [.provision q.units] := by
    intro s st
    refine (heard_concat _ _ _ _).trans ?_
    rw [if_pos ⟨rfl, rfl⟩]
    rfl
  refine ⟨h.call rfl rfl rfl rfl, ?_, fun a given => ?_, fun a given => ?_⟩
  · show (b.respond s.calls _ q).isSome = (b.respond s'.calls _ q).isSome
    rw [follows.prompt, follows.prompt, h.heard q.provider.id]
  · rw [told]
    exact follows.allowed _ _ _ _ given
  · rw [told]
    exact follows.allowed _ _ _ _ given

/-- Answers without units make no difference. -/
theorem accept_idle (h : Peers classOf start ref ref' r (s, st) (s', st')) {q : Request}
    {a a' : Answer} (idle : ∀ planned, a = .ok planned → PlannedCapacity.totalUnits planned = 0)
    (idle' : ∀ planned, a' = .ok planned → PlannedCapacity.totalUnits planned = 0) :
    Peers classOf start ref ref' r (Engine.accept w q a s st) (Engine.accept w q a' s' st') := by
  obtain ⟨s₁, accepted, ext⟩ := extends_accept w idle s st
  obtain ⟨s₁', accepted', ext'⟩ := extends_accept w idle' s' st'
  rw [accepted, accepted']
  refine ⟨h.left.extends ext, h.right.extends ext', ?_, h.sketch⟩
  exact ((ext.sameFor r).facet.trans h.facet).trans (ext'.sameFor r).facet.symm

/-- Answers in the same manner come to the same. -/
theorem accept (h : Peers classOf start ref ref' r (s, st) (s', st')) (tracker : w.tracker = .queue)
    {q : Request} (hr : q.resource = r) {a a' : Answer}
    (allowed : m.Allows (Muster.heard s.calls q.provider.id q.resource) q a)
    (allowed' : m.Allows (Muster.heard s'.calls q.provider.id q.resource) q a')
    (new : start.AllNew (Engine.accept w q a s st).1.created)
    (new' : start.AllNew (Engine.accept w q a' s' st').1.created) :
    Peers classOf start ref ref' r (Engine.accept w q a s st) (Engine.accept w q a' s' st') := by
  subst hr
  have left := h.left.accept tracker rfl allowed.ofClass new
  have right := h.right.accept tracker rfl allowed'.ofClass new'
  have told : Muster.heard s.calls q.provider.id q.resource = _ := h.heard q.provider.id
  rw [told] at allowed
  rcases a with error | planned <;> rcases a' with error' | planned'
  · exact h.accept_idle nofun nofun
  · cases allowed.symm.trans allowed'.1
  · cases allowed.1.symm.trans allowed'
  · have sizes : planned.map (·.units) = planned'.map (·.units) :=
      Option.some.inj (allowed.1.symm.trans allowed'.1)
    have total := ReviewState.totalUnits_of_sizes sizes
    by_cases none : PlannedCapacity.totalUnits planned = 0
    · refine h.accept_idle ?_ ?_
      · rintro _ ⟨⟩
        exact none
      · rintro _ ⟨⟩
        exact total ▸ none
    · obtain ⟨d, only⟩ := h.left.working.only
      obtain ⟨d', only'⟩ := h.right.working.only
      obtain ⟨sketch, links⟩ :=
        ReviewState.sketch_recordPlanned only only' h.sketch q.provider.id sizes
      rw [Engine.accept_created] at new new'
      have facet := h.left.working.facet_accept h.left.grown tracker none allowed.2 new
      have facet' := h.right.working.facet_accept h.right.grown tracker (total ▸ none) allowed'.2
        new'
      refine ⟨left, right, ?_, ?_⟩
      · refine (facet.trans ?_).trans facet'.symm
        rw [show start.facet classOf q.resource s = _ from h.facet, links, sizes]
      · obtain ⟨_, _, accepted⟩ := Engine.accept_ok (q := q) tracker none s st
        obtain ⟨_, _, accepted'⟩ := Engine.accept_ok (q := q) tracker (total ▸ none) s' st'
        rw [accepted, accepted']
        exact sketch

/-- Reviews of a class that see the same go on to see the same. -/
theorem lockstep (tracker : w.tracker = .queue) (plain : c.Plain) (follows : b.Follows m)
    (classOf : WorkItemId → ResourceClass) (start ref ref' : Site HostLimiter) (r : ResourceClass) :
    Lockstep w b c r (fun s s' q a a' =>
        m.Allows (Muster.heard s.calls q.provider.id q.resource) q a ∧
        m.Allows (Muster.heard s'.calls q.provider.id q.resource) q a')
      start.AllNew (fun _ => Peers classOf start ref ref' r) where
  adds := plain.onlyFails.onlyCreates
  early := AllNew.early
  keys h := by
    obtain ⟨d, only⟩ := h.left.working.only
    obtain ⟨d', only'⟩ := h.right.working.only
    exact ⟨only.keys, only'.keys⟩
  unsatisfied h := ReviewState.unsatisfied_of_sketch h.sketch
  consult _ _ h := h.consult follows _ _
  ask hr h := by
    obtain ⟨asked, prompt, allowed, allowed'⟩ := h.ask follows hr
    exact ⟨asked, prompt, fun a a' given given' => ⟨allowed a given, allowed' a' given'⟩⟩
  accept hr h allowed new new' := h.accept tracker hr allowed.1 allowed.2 new new'
  custom mem _ := absurd mem (plain _ _ _)

end Peers

/-! ## The beginning and the end of a review -/

theorem Site.Grown.classed (h : start.Grown s) (classed : start.queue.Classed classOf) :
    s.queue.Classed classOf := by
  intro id e found
  have same := congrArg (·.find? id) h.items
  simp only [Queue.find?_bare, found, Option.map_some] at same
  obtain ⟨e', found', bare⟩ := Option.map_eq_some_iff.1 same.symm
  obtain ⟨own, resource⟩ := classed id e' found'
  have item : e'.bare.item = e.bare.item := congrArg QueuedItem.item bare
  change e'.item = e.item at item
  exact ⟨item ▸ own, item ▸ resource⟩

/-- A class that nothing has happened to looks as it did at the start. -/
theorem Site.SameFor.snapshot (h : SameFor classOf r start s) (grown : start.Grown s)
    (new : start.AllNew s.created) (classed : start.queue.Classed classOf) :
    s.queue.snapshot r = start.queue.snapshot r := by
  have items : s.queue.buildable r = start.queue.buildable r := by
    refine Table.filter_values_congr fun id e test => ?_
    have resource : e.item.resource = r := beq_iff_eq.1 (Bool.and_eq_true_iff.1 test).2
    constructor
    · intro found
      rw [← h.items id (((grown.classed classed) id e found).2.symm.trans resource)]
      exact found
    · intro found
      rw [h.items id ((classed id e found).2.symm.trans resource)]
      exact found
  have listed : (s.queue.buildable r).map (fun e => (⟨e.item, s.queue.live e.link⟩ : PendingItem)) =
      (start.queue.buildable r).map fun e => ⟨e.item, start.queue.live e.link⟩ := by
    rw [items]
    refine List.map_congr_left fun e mem => ?_
    obtain ⟨id, found⟩ := Table.mem_values.1 (List.mem_filter.1 mem).1
    rw [← Queue.linkOf_of_find? found, grown.live new id]
  have flights : s.queue.inFlightOf r = start.queue.inFlightOf r :=
    Table.filter_values_congr fun id p test => h.inFlight id p (beq_iff_eq.1 test)
  have idle : s.queue.availableOf r = start.queue.availableOf r := by
    simp only [Queue.availableOf, grown.available]
  simp only [Queue.snapshot, listed, flights, idle]

/-- The review of a class that nothing has happened to begins. -/
theorem Site.SameFor.own (h : SameFor classOf r start s) (grown : start.Grown s)
    (classed : start.queue.Classed classOf) :
    Own classOf start s r (Cycle.opened r s, Cycle.captured r s) := by
  have ext : s.Extends (Cycle.opened r s) := ⟨rfl, rfl, rfl, List.prefix_refl _⟩
  refine ⟨ext.grown grown, ⟨⟨_, .captured r s⟩, ?_, ?_, nofun, ?_, h.inFlight⟩, ?_⟩
  · exact .captured (grown.classed classed) r
  · exact List.nil_sublist _
  · exact fun id hid => .inl (h.linkOf hid)
  · exact fun r' _ => ext.sameFor r'

/-- Reviews of a class that nothing has happened to begin with the same. -/
theorem Peers.begin (h : SameFor classOf r start s) (h' : SameFor classOf r start s')
    (grown : start.Grown s) (grown' : start.Grown s') (new : start.AllNew s.created)
    (new' : start.AllNew s'.created) (classed : start.queue.Classed classOf) :
    Peers classOf start s s' r (Cycle.opened r s, Cycle.captured r s)
      (Cycle.opened r s', Cycle.captured r s') where
  left := h.own grown classed
  right := h'.own grown' classed
  facet := by
    have ext : ∀ s : Site HostLimiter, s.Extends (Cycle.opened r s) := fun s =>
      ⟨rfl, rfl, rfl, List.prefix_refl _⟩
    exact ((((ext s).sameFor r).facet.trans h.facet).trans h'.facet.symm).trans
      ((ext s').sameFor r).facet.symm
  sketch := by
    simp only [ReviewState.sketch, (ReviewState.Only.captured r s).find?,
      (ReviewState.Only.captured r s').find?, h.snapshot grown new classed,
      h'.snapshot grown' new' classed]
    rfl

/-- What the end of a review makes of its site. -/
structure Site.Ended (classOf : WorkItemId → ResourceClass) (start ref : Site HostLimiter)
    (r : ResourceClass) (s : Site HostLimiter) : Prop where
  grown : start.Grown s
  settled : start.Settled classOf r s
  others : ∀ r', r' ≠ r → ref.SameFor classOf r' s

theorem Site.Own.conclude (h : Own classOf start ref r (s, st)) (new : start.AllNew s.created)
    (w : Wiring) (t : Tally) : Ended classOf start ref r (Cycle.conclude w r s st t).1 ∧
      start.facet classOf r (Cycle.conclude w r s st t).1 = { start.facet classOf r s with
        inFlight := (start.facet classOf r s).inFlight +
          Count.exactSum (st.planned.map (·.units)) } := by
  obtain ⟨journal, concluded⟩ := Cycle.conclude_frame w r s st t
  rw [concluded]
  have grown : start.Grown s := h.grown
  have working : start.Working classOf r s st := h.working
  have once : (st.planned.map (·.id)).Nodup := (working.among.map _).nodup new.once
  have absent := working.absent grown new
  have stored : ∀ {id p}, (s.queue.recordPending st.planned).inFlight.find? id = some p ↔
      s.queue.inFlight.find? id = some p ∨ p ∈ st.planned ∧ p.id = id :=
    PlannedCapacity.find?_store once absent
  refine ⟨⟨⟨grown.created, grown.mode, grown.ceilings, grown.items, grown.available, grown.usage,
    ?_, ?_⟩, ?_, ?_⟩, ?_⟩
  · intro id p found
    rcases stored.1 found with old | ⟨mem, same⟩
    · exact grown.inFlight id p old
    · exact .inr ⟨working.among.mem mem, same⟩
  · exact fun id p found => stored.2 (.inl (grown.kept id p found))
  · intro id hid
    refine (working.links id hid).imp_right ?_
    rintro ⟨free, x, listed, linked⟩
    obtain ⟨p, mem, rfl⟩ := List.mem_map.1 listed
    exact ⟨free, p, working.ofClass p mem, linked, stored.2 (.inr ⟨mem, rfl⟩)⟩
  · intro r' other
    refine (h.others r' other).trans ⟨fun _ => rfl, fun _ _ _ => Iff.rfl, ?_, fun _ _ => rfl⟩
    intro id p hp
    refine stored.trans (or_iff_left ?_)
    rintro ⟨mem, -⟩
    exact other (hp.symm.trans (working.ofClass p mem))
  · refine Facet.ext rfl rfl rfl ?_
    refine (PlannedCapacity.sumOf_store once absent _).trans (congrArg _ ?_)
    exact PlannedCapacity.sum_unitsIf_all fun p mem => beq_iff_eq.2 (working.ofClass p mem)

end Peers

/-! ## Views -/

/-- An outcome without the identifier of the review. -/
def Outcome.nameless (o : Outcome) : Outcome := { o with review := default }

/-- How far a review has got, as far as it matters to how it goes on. -/
inductive Scene where
  | unbegun
  | waiting (sketch : Sketch) (cursor : Cursor HostLimiter)
  | finished (outcome : Outcome)

def Scene.of (r : ResourceClass) : Option (Cycle HostLimiter) → Scene
  | none => .unbegun
  | some (.waiting st cursor) => .waiting (st.sketch r) cursor
  | some (.finished o) => .finished o.nameless

/-- What a review sees of the site, and how far it has got. -/
def Site.view (classOf : WorkItemId → ResourceClass) (start : Site HostLimiter) (r : ResourceClass)
    (x : Site HostLimiter × Option (Cycle HostLimiter)) : Facet × Scene :=
  (start.facet classOf r x.1, .of r x.2)

/-- What holds of the class `r` when its review has got this far. -/
def Site.Holds (classOf : WorkItemId → ResourceClass) (start : Site HostLimiter)
    (b : Behaviour) (c : Chain HostLimiter) (r : ResourceClass) :
    Site HostLimiter × Option (Cycle HostLimiter) → Prop
  | (s, none) => SameFor classOf r start s
  | (s, some (.waiting st cursor)) => start.Working classOf r s st ∧ ∃ n, cursor.Follows b c r n
  | (s, some (.finished _)) => start.Settled classOf r s

section Views

variable {classOf : WorkItemId → ResourceClass} {start ref ref' s s' : Site HostLimiter}
  {r : ResourceClass} {st st' : ReviewState} {w : Wiring} {b : Behaviour} {m : Manner}
  {c : Chain HostLimiter}

open Site

theorem Site.SameFor.view (h : SameFor classOf r s s') (x : Option (Cycle HostLimiter)) :
    start.view classOf r (s', x) = start.view classOf r (s, x) :=
  congrArg (·, Scene.of r x) h.facet

theorem Site.SameFor.holds (h : SameFor classOf r s s') (created : s.created <+: s'.created)
    {x : Option (Cycle HostLimiter)} (holds : start.Holds classOf b c r (s, x)) :
    start.Holds classOf b c r (s', x) := by
  rcases x with - | ⟨st, cursor⟩ | o
  · exact SameFor.trans holds h
  · exact ⟨h.working created holds.1, holds.2⟩
  · exact h.settled holds

/-- What a step of the review of the class `r` on the site `ref` comes to. -/
structure Site.Comes (classOf : WorkItemId → ResourceClass) (start ref : Site HostLimiter)
    (b : Behaviour) (c : Chain HostLimiter) (r : ResourceClass)
    (x : Site HostLimiter × Cycle HostLimiter) : Prop where
  grown : start.Grown x.1
  holds : start.Holds classOf b c r (x.1, some x.2)
  others : ∀ r', r' ≠ r → ref.SameFor classOf r' x.1

/-- Reviews of a class that stay in step come to the same view. -/
theorem Peers.comes {x y : Site HostLimiter × Cycle HostLimiter}
    (h : Cycle.InStep w b c r (fun _ => Peers classOf start ref ref' r) x y)
    (new : start.AllNew x.1.created) (new' : start.AllNew y.1.created) :
    Comes classOf start ref b c r x ∧
      start.view classOf r (x.1, some x.2) = start.view classOf r (y.1, some y.2) := by
  cases h with
  | waiting follows h =>
    refine ⟨⟨h.left.grown, ⟨h.left.working, _, follows⟩, h.left.others⟩, ?_⟩
    exact congrArg₂ Prod.mk h.facet (congrArg (Scene.waiting · _) h.sketch)
  | @finished n s st s' st' t x y failed few h concluded concluded' =>
    subst concluded concluded'
    rw [Cycle.conclude_created] at new new'
    obtain ⟨ended, facet⟩ := h.left.conclude new w t
    obtain ⟨-, facet'⟩ := h.right.conclude new' w t
    have sizes : st.planned.map (·.units) = st'.planned.map (·.units) :=
      congrArg Sketch.sizes h.sketch
    refine ⟨⟨ended.grown, ended.settled, ended.others⟩, Prod.ext ?_ ?_⟩
    · refine (facet.trans ?_).trans facet'.symm
      rw [show start.facet classOf r s = _ from h.facet, sizes]
    · have requested : st.unitsRequested = st'.unitsRequested :=
        ReviewState.totalUnits_of_sizes sizes
      have lacks : st.unsatisfied r = st'.unsatisfied r :=
        ReviewState.unsatisfied_of_sketch h.sketch
      simp only [Site.view, Cycle.conclude, Scene.of, Outcome.nameless, requested, lacks]

/-- The steps of the review of a class, as views show them. -/
inductive Walk (classOf : WorkItemId → ResourceClass) (w : Wiring) (b : Behaviour) (m : Manner)
    (c : Chain HostLimiter) (start : Site HostLimiter) (r : ResourceClass) (F G : Facet × Scene) :
    Prop
  | begin {s s' cycle} : F = start.view classOf r (s, none) → start.Grown s →
      SameFor classOf r start s → Cycle.begin w b c r s = (s', cycle) →
      start.AllNew s'.created → G = start.view classOf r (s', some cycle) →
      Walk classOf w b m c start r F G
  | resume {s s' st cursor n a cycle} : F = start.view classOf r (s, some (.waiting st cursor)) →
      start.Grown s → start.Working classOf r s st → cursor.Follows b c r n →
      m.Allows (heard s.calls cursor.pause.request.provider.id r) cursor.pause.request a →
      Cycle.resume w b r st cursor a s = (s', cycle) → start.AllNew s'.created →
      G = start.view classOf r (s', some cycle) → Walk classOf w b m c start r F G

variable {F G G' : Facet × Scene}

/-- Reviews go only one way. -/
theorem Walk.unique (tracker : w.tracker = .queue) (plain : c.Plain) (follows : b.Follows m)
    (classed : start.queue.Classed classOf) (h : Walk classOf w b m c start r F G)
    (h' : Walk classOf w b m c start r F G') : G = G' := by
  cases h with
  | @begin s₁ s₁' cycle from₁ grown₁ same₁ begun₁ new₁ to₁ =>
    cases h' with
    | @begin s₂ s₂' cycle' from₂ grown₂ same₂ begun₂ new₂ to₂ =>
      have lock := Peers.lockstep tracker plain follows classOf start s₁ s₂ r
      have early₁ := lock.begin_created s₁
      have early₂ := lock.begin_created s₂
      rw [begun₁] at early₁
      rw [begun₂] at early₂
      have peers := Peers.begin same₁ same₂ grown₁ grown₂ (new₁.early early₁) (new₂.early early₂)
        classed
      have inStep := lock.begin peers (by rw [begun₁]; exact new₁) (by rw [begun₂]; exact new₂)
      rw [begun₁, begun₂] at inStep
      exact (to₁.trans (Peers.comes inStep new₁ new₂).2).trans to₂.symm
    | resume from₂ => cases congrArg Prod.snd (from₁.symm.trans from₂)
  | @resume s₁ s₁' st₁ cursor n a cycle from₁ grown₁ working₁ at₁ allowed₁ resumed₁ new₁ to₁ =>
    cases h' with
    | begin from₂ => cases congrArg Prod.snd (from₁.symm.trans from₂)
    | @resume s₂ s₂' st₂ cursor' n' a' cycle' from₂ grown₂ working₂ _ allowed₂ resumed₂ new₂ to₂ =>
      have lock := Peers.lockstep tracker plain follows classOf start s₁ s₂ r
      have views := from₁.symm.trans from₂
      obtain ⟨sketch, cursors⟩ := Scene.waiting.inj (congrArg Prod.snd views)
      subst cursors
      have peers : Peers classOf start s₁ s₂ r (s₁, st₁) (s₂, st₂) :=
        ⟨⟨grown₁, working₁, fun r' _ => .refl r' s₁⟩, ⟨grown₂, working₂, fun r' _ => .refl r' s₂⟩,
          congrArg Prod.fst views, sketch⟩
      rw [← at₁.resource] at allowed₁ allowed₂
      have inStep := lock.resume at₁ peers ⟨allowed₁, allowed₂⟩
        (by rw [resumed₁]; exact new₁) (by rw [resumed₂]; exact new₂)
      rw [resumed₁, resumed₂] at inStep
      exact (to₁.trans (Peers.comes inStep new₁ new₂).2).trans to₂.symm

/-- A review that is over goes nowhere. -/
theorem Walk.last {f : Facet} {o : Outcome} (h : Walk classOf w b m c start r (f, .finished o) G) :
    False := by
  cases h with
  | begin from_ => cases congrArg Prod.snd from_
  | resume from_ => cases congrArg Prod.snd from_

/-- What a task does is seen by its class only, as a step of the review if it is one. -/
theorem System.Reviews.walks (tracker : w.tracker = .queue) (plain : c.Plain)
    (follows : b.Follows m) (classed : start.queue.Classed classOf) {a : Action}
    {x y : Site HostLimiter × Option (Cycle HostLimiter)} (h : System.Reviews w b c r a x y)
    (allowed : ∀ {t answer st cursor}, a = .answer t answer → x.2 = some (.waiting st cursor) →
      m.Allows (heard x.1.calls cursor.pause.request.provider.id cursor.pause.request.resource)
        cursor.pause.request answer)
    (grown : start.Grown x.1) (holds : start.Holds classOf b c r x)
    (new : start.AllNew y.1.created) :
    start.Grown y.1 ∧ start.Holds classOf b c r y ∧ x.1.created <+: y.1.created ∧
      (∀ r', r' ≠ r → SameFor classOf r' x.1 y.1) ∧
      ReflTransGen (Walk classOf w b m c start r) (start.view classOf r x)
        (start.view classOf r y) := by
  cases h with
  | still => exact ⟨grown, holds, List.prefix_refl _, fun r' _ => .refl r' _, .refl⟩
  | @begin s s' cycle begun =>
    have lock := Peers.lockstep tracker plain follows classOf start s s r
    have early := lock.begin_created s
    rw [begun] at early
    have peers := Peers.begin holds holds grown grown (new.early early) (new.early early) classed
    have inStep := lock.begin peers (by rw [begun]; exact new) (by rw [begun]; exact new)
    rw [begun] at inStep
    obtain ⟨comes, -⟩ := Peers.comes inStep new new
    exact ⟨comes.grown, comes.holds, early, comes.others,
      .single (.begin rfl grown holds begun new rfl)⟩
  | @resume s s' cycle t answer st cursor acted resumed =>
    obtain ⟨working, n, at_⟩ := holds
    have lock := Peers.lockstep tracker plain follows classOf start s s r
    have early := lock.resume_created at_ answer s st
    rw [resumed] at early
    have given := allowed acted rfl
    have own : Own classOf start s r (s, st) := ⟨grown, working, fun r' _ => .refl r' s⟩
    have inStep := lock.resume at_ ⟨own, own, rfl, rfl⟩ ⟨given, given⟩
      (by rw [resumed]; exact new) (by rw [resumed]; exact new)
    rw [resumed] at inStep
    obtain ⟨comes, -⟩ := Peers.comes inStep new new
    rw [at_.resource] at given
    exact ⟨comes.grown, comes.holds, early, comes.others,
      .single (.resume rfl grown working at_ given resumed new rfl)⟩

end Views

/-! ## Runs -/

/-- Nobody but reviews does anything. -/
def Terms.undisturbed : Terms := { moves := fun _ => False }

/-- Reviews that waited got answers in this manner. -/
def History.Follows (h : History HostLimiter) (m : Manner) : Prop :=
  ∀ sys t a q, (sys, .answer t a) ∈ h → sys.request? t = some q →
    m.Allows (heard sys.site.calls q.provider.id q.resource) q a

/-- Each review has walked its own way from the start, and nothing has happened to classes without a
review. -/
structure System.Parted (classOf : WorkItemId → ResourceClass) (w : Wiring) (b : Behaviour)
    (m : Manner) (c : Chain HostLimiter) (start : Site HostLimiter) (sys : System HostLimiter) :
    Prop where
  grown : start.Grown sys.site
  tasks : ∀ {t r φ}, sys.tasks.find? t = some ⟨r, φ⟩ →
    start.Holds classOf b c r (sys.site, φ.cycle?) ∧
    ReflTransGen (Walk classOf w b m c start r) (start.view classOf r (start, none))
      (start.view classOf r (sys.site, φ.cycle?))
  rest : ∀ r, (∀ t φ, sys.tasks.find? t ≠ some ⟨r, φ⟩) → start.SameFor classOf r sys.site

/-- Two sites show the same of the class `r`, up to the identifiers of capacity: what providers were
asked, the units that are idle and in flight, what counts against ceilings, and which items of the
queue `q` are linked, with links that count and at all. -/
structure Site.Agree (q : Queue) (r : ResourceClass) (s s' : Site HostLimiter) : Prop where
  heard : ∀ p, Muster.heard s.calls p r = Muster.heard s'.calls p r
  available : s.queue.availableOf r = s'.queue.availableOf r
  inFlight : Count.exactSum ((s.queue.inFlightOf r).map (·.units)) =
    Count.exactSum ((s'.queue.inFlightOf r).map (·.units))
  inUse : ∀ p, s.limiter.ceilings.inUse p r = s'.limiter.ceilings.inUse p r
  linked : ∀ id e, q.items.find? id = some e → e.item.resource = r →
    (s.queue.linkOf id).isSome = (s'.queue.linkOf id).isSome ∧
    (s.queue.live (s.queue.linkOf id)).isSome = (s'.queue.live (s'.queue.linkOf id)).isSome

section Runs

variable {classOf : WorkItemId → ResourceClass} {w : Wiring} {b : Behaviour} {m : Manner}
  {c : Chain HostLimiter} {start : Site HostLimiter} {sys sys' : System HostLimiter} {a : Action}

open Site

/-- What happens between the steps of reviews concerns no class. -/
theorem System.act_extends (acted : sys.act w b c a = some sys') (none : a.task? = none)
    (quiet : ∀ move, a ≠ .move move) : sys.site.Extends sys'.site := by
  cases a with
  | move move => exact absurd rfl (quiet move)
  | call r =>
    cases acted
    exact ⟨rfl, rfl, rfl, List.prefix_refl _⟩
  | callAll =>
    cases acted
    rw [callEach_site]
    exact ⟨rfl, rfl, rfl, List.prefix_refl _⟩
  | receive =>
    obtain ⟨⟨q, line⟩, -, rfl⟩ := Option.map_eq_some_iff.1 acted
    exact ⟨rfl, rfl, rfl, List.prefix_refl _⟩
  | step t | answer t _ => cases none

/-- A class without tasks had none before. -/
theorem System.Orderly.act_none (orderly : sys.Orderly) (acted : sys.act w b c a = some sys')
    {r : ResourceClass} (none : ∀ t φ, sys'.tasks.find? t ≠ some ⟨r, φ⟩) :
    ∀ t φ, sys.tasks.find? t ≠ some ⟨r, φ⟩ := by
  intro t φ found
  obtain ⟨ψ, later⟩ := orderly.act_task acted found
  exact none t ψ later

/-- A task that does not act sees nothing of what happens, or has just been called. -/
theorem System.Parted.stay (h : sys.Parted classOf w b m c start) (orderly : sys.Orderly)
    (single : sys'.Single) (acted : sys.act w b c a = some sys')
    (created : sys.site.created <+: sys'.site.created) {t : TaskId} {r : ResourceClass}
    {φ : Phase HostLimiter} (other : a.task? ≠ some t) (same : SameFor classOf r sys.site sys'.site)
    (found : sys'.tasks.find? t = some ⟨r, φ⟩) : start.Holds classOf b c r (sys'.site, φ.cycle?) ∧
      ReflTransGen (Walk classOf w b m c start r) (start.view classOf r (start, none))
        (start.view classOf r (sys'.site, φ.cycle?)) := by
  cases before : sys.tasks.find? t with
  | some task =>
    cases (orderly.act_other acted other before).symm.trans found
    obtain ⟨holds, walks⟩ := h.tasks before
    exact ⟨same.holds created holds, same.view φ.cycle? ▸ walks⟩
  | none =>
    rcases System.found_act acted other found with old | called
    · cases before.symm.trans old
    · obtain rfl : φ = .called := called
      have all : start.SameFor classOf r sys'.site := by
        refine (h.rest r fun t' ψ here => ?_).trans same
        obtain ⟨χ, later⟩ := orderly.act_task acted here
        cases single later found
        cases before.symm.trans here
      exact ⟨all, (all.view none).symm ▸ .refl⟩

theorem System.Parted.act (h : sys.Parted classOf w b m c start) (tracker : w.tracker = .queue)
    (plain : c.Plain) (follows : b.Follows m) (classed : start.queue.Classed classOf)
    (orderly : sys.Orderly) (single : sys'.Single) (acted : sys.act w b c a = some sys')
    (quiet : ∀ move, a ≠ .move move)
    (allowed : ∀ t answer q, a = .answer t answer → sys.request? t = some q →
      m.Allows (heard sys.site.calls q.provider.id q.resource) q answer)
    (new : start.AllNew sys'.site.created) : sys'.Parted classOf w b m c start := by
  cases own : a.task? with
  | none =>
    have ext := System.act_extends acted own quiet
    refine ⟨ext.grown h.grown, fun found => ?_, fun r none => ?_⟩
    · exact h.stay orderly single acted ext.created (own ▸ nofun) (ext.sameFor _) found
    · exact (h.rest r (orderly.act_none acted none)).trans (ext.sameFor r)
  | some t₀ =>
    obtain ⟨r₀, φ₀, found₀⟩ := System.found_own acted own
    obtain ⟨ψ, after, reviews⟩ := System.act_review acted own found₀
    obtain ⟨holds, walks⟩ := h.tasks found₀
    obtain ⟨grown, holds', created, others, more⟩ := reviews.walks tracker plain follows classed
      (by
        intro t answer st cursor same waits
        subst same
        cases own
        exact allowed t₀ answer _ rfl (System.request?_of_cycle? found₀ waits)) h.grown holds new
    refine ⟨grown, fun {t r φ} found => ?_, fun r none => ?_⟩
    · by_cases e : t = t₀
      · subst e
        cases after.symm.trans found
        exact ⟨holds', walks.trans more⟩
      · have other : r ≠ r₀ := by
          rintro rfl
          exact e (single found after)
        refine h.stay orderly single acted created (fun same => ?_) (others r other) found
        exact e (Option.some.inj (same.symm.trans own))
    · have other : r ≠ r₀ := by
        rintro rfl
        exact none t₀ ψ after
      exact (h.rest r (orderly.act_none acted none)).trans (others r other)

variable {before : System HostLimiter} {h : History HostLimiter}

theorem Run.parted (tracker : w.tracker = .queue) (plain : c.Plain) (follows : b.Follows m)
    (classed : before.site.queue.Classed classOf) (orderly : before.Orderly)
    (idle : before.tasks = ∅) (run : Run w b c .undisturbed before h sys)
    (answers : h.Follows m) (single : sys.Single) (new : before.site.AllNew sys.site.created) :
    sys.Parted classOf w b m c before.site := by
  have none : ∀ t task, before.tasks.find? t ≠ some task := by
    rw [idle]
    exact nofun
  induction run with
  | start => exact ⟨.refl _, fun found => absurd found (none _ _), fun r _ => .refl r _⟩
  | @next h sys a sys' run allowed acted ih =>
    have orderly := run.orderly orderly
    have poised := run.poised plain.onlyFails fun t r φ found => absurd found (none _ _)
    have early := poised.created plain.onlyFails acted
    have parted := ih (fun sys t a q mem => answers sys t a q (List.mem_append_left _ mem))
      (orderly.single_before acted single) (new.early early)
    refine parted.act tracker plain follows classed orderly single acted ?_ ?_ new
    · rintro move rfl
      exact allowed
    · rintro t answer q rfl asked
      exact answers sys t answer q (List.mem_append_right _ List.mem_cons_self) asked

/-- The review of a class ends with the same view in every run in which it comes to its end. -/
theorem System.Parted.views_agree {sys₁ sys₂ : System HostLimiter} (tracker : w.tracker = .queue)
    (plain : c.Plain) (follows : b.Follows m) (classed : start.queue.Classed classOf)
    (h₁ : sys₁.Parted classOf w b m c start) (h₂ : sys₂.Parted classOf w b m c start)
    {r : ResourceClass} {t₁ t₂ : TaskId} {o₁ o₂ : Outcome}
    (done₁ : sys₁.tasks.find? t₁ = some ⟨r, .done o₁⟩)
    (done₂ : sys₂.tasks.find? t₂ = some ⟨r, .done o₂⟩) :
    start.facet classOf r sys₁.site = start.facet classOf r sys₂.site ∧
      o₁.nameless = o₂.nameless := by
  have unique : Relator.RightUnique (Walk classOf w b m c start r) :=
    fun _ _ _ => Walk.unique tracker plain follows classed
  have last : ∀ {F : Facet} {o : Outcome} {G}, ReflTransGen (Walk classOf w b m c start r)
      (F, .finished o) G → G = (F, .finished o) := by
    intro F o G walks
    rcases walks.cases_head with same | ⟨_, step, -⟩
    · exact same.symm
    · exact step.last.elim
  obtain ⟨-, walks₁⟩ := h₁.tasks done₁
  obtain ⟨-, walks₂⟩ := h₂.tasks done₂
  have same : start.view classOf r (sys₁.site, some (.finished o₁)) =
      start.view classOf r (sys₂.site, some (.finished o₂)) := by
    rcases ReflTransGen.total_of_right_unique unique walks₁ walks₂ with on | on
    · exact (last on).symm
    · exact last on
  exact ⟨congrArg Prod.fst same, Scene.finished.inj (congrArg Prod.snd same)⟩

/-- Sites with the same facet of a class show the same of it, once its review is over. -/
theorem Site.agree_of_facet {s s' : Site HostLimiter} {r : ResourceClass}
    (classed : start.queue.Classed classOf) (grown : start.Grown s) (grown' : start.Grown s')
    (new : start.AllNew s.created) (new' : start.AllNew s'.created)
    (settled : start.Settled classOf r s) (settled' : start.Settled classOf r s')
    (same : start.facet classOf r s = start.facet classOf r s') : Agree start.queue r s s' := by
  obtain ⟨heard, held, moved, inFlight⟩ := Facet.ext_iff.1 same
  -- A link is that of the start, or it counts.
  have fresh : ∀ {s : Site HostLimiter} {id}, start.Settled classOf r s → classOf id = r →
      s.queue.linkOf id ≠ start.queue.linkOf id →
      (s.queue.linkOf id).isSome = true ∧ (s.queue.live (s.queue.linkOf id)).isSome = true := by
    intro s id settled hid moved
    rcases settled id hid with old | ⟨-, p, -, linked, found⟩
    · exact absurd old moved
    · rw [linked]
      simp [Queue.live, Table.contains, found]
  refine ⟨congrFun heard, ?_, ?_, fun p => StaticLimiter.inUse_congr (congrFun held p), ?_⟩
  · simp only [Queue.availableOf, grown.available, grown'.available]
  · simp only [Queue.inFlightOf, Table.exactSum_filter_values]
    exact inFlight
  · intro id e found hr
    have hid : classOf id = r := (classed id e found).2.symm.trans hr
    have both := iff_of_eq (congrFun moved id)
    by_cases old : s.queue.linkOf id = start.queue.linkOf id
    · have old' : s'.queue.linkOf id = start.queue.linkOf id :=
        by_contra fun other => (both.2 ⟨hid, other⟩).2 old
      rw [old, old', grown.live new, grown'.live new']
      exact ⟨rfl, rfl⟩
    · obtain ⟨linked, live⟩ := fresh settled hid old
      obtain ⟨linked', live'⟩ := fresh settled' hid (both.1 ⟨hid, old⟩).2
      exact ⟨linked.trans linked'.symm, live.trans live'.symm⟩

/-- The review of a class comes to the same in every run in which it comes to its end. -/
theorem System.Parted.agree {sys₁ sys₂ : System HostLimiter} (tracker : w.tracker = .queue)
    (plain : c.Plain) (follows : b.Follows m) (classed : start.queue.Classed classOf)
    (h₁ : sys₁.Parted classOf w b m c start) (h₂ : sys₂.Parted classOf w b m c start)
    (new₁ : start.AllNew sys₁.site.created) (new₂ : start.AllNew sys₂.site.created)
    {r : ResourceClass} {t₁ t₂ : TaskId} {o₁ o₂ : Outcome}
    (done₁ : sys₁.tasks.find? t₁ = some ⟨r, .done o₁⟩)
    (done₂ : sys₂.tasks.find? t₂ = some ⟨r, .done o₂⟩) :
    Agree start.queue r sys₁.site sys₂.site ∧ o₁ = { o₂ with review := o₁.review } := by
  obtain ⟨facets, outcomes⟩ := h₁.views_agree tracker plain follows classed h₂ done₁ done₂
  obtain ⟨settled₁, -⟩ := h₁.tasks done₁
  obtain ⟨settled₂, -⟩ := h₂.tasks done₂
  refine ⟨agree_of_facet classed h₁.grown h₂.grown new₁ new₂ settled₁ settled₂ facets, ?_⟩
  exact congrArg (fun o : Outcome => { o with review := o₁.review }) outcomes

end Runs

end Muster
