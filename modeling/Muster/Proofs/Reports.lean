import Muster.Proofs.Conservation
import Muster.Proofs.Independence
import Muster.Proofs.Loads
import Muster.Proofs.Lockstep

/-!
# One story

What a review did is told four times: by its outcome, by its events, by the capacity that it put in
flight and by what a fresh look at the queue shows. The four are kept up in different places, and
they agree: every unit that was accepted is in one event, in the plan of the review and, once the
review is over, in flight.

`Account` is what holds while a review is under way: the events it has reported so far are those of
its plan. A review that nobody interferes with keeps it at every step, and `Cycle.conclude` turns it
into `Site.Tells`.

**Main statement.** `Run.review_tells`.
-/

namespace Muster

variable {L : Type}

/-! ## Events -/

namespace Event

/-- The units that were requested from a provider. -/
def units? : Event → Option Count
  | provisionRequested _ _ _ units _ => some units
  | _ => none

/-- The capacity that was requested from a provider. -/
def planned : Event → List PlannedId
  | provisionRequested _ _ _ _ ids => ids
  | _ => []

/-- A strategy has failed. -/
def isFailure : Event → Bool
  | strategyFailed .. => true
  | _ => false

/-- A review is over. -/
def isEnd : Event → Bool
  | reviewCompleted .. => true
  | _ => false

end Event

theorem Site.emit_recording {w : Wiring} (sink : w.sink = .recording) (e : Event) (s : Site L) :
    s.emit w e = { s with journal := s.journal ++ [e] } := by
  simp only [emit, sink]

/-- The capacity that was created since `s` is new, and with it the units of the class still fit a
count. -/
structure Site.Takes (s : Site L) (r : ResourceClass) (created : List PlannedCapacity) : Prop where
  once : ((created.drop s.created.length).map (·.id)).Nodup
  new : ∀ p ∈ created.drop s.created.length, s.queue.inFlight.find? p.id = none
  fits : Count.exactSum ((s.queue.inFlightOf r).map (·.units)) +
    Count.exactSum ((created.drop s.created.length).map (·.units)) < 4294967296

theorem Site.Takes.early {s : Site L} {r : ResourceClass} {l m : List PlannedCapacity}
    (part : l <+: m) (h : s.Takes r m) : s.Takes r l := by
  obtain ⟨k, rfl⟩ := part
  obtain ⟨once, new, fits⟩ := h
  rw [List.drop_append] at once new fits
  rw [List.map_append, List.nodup_append] at once
  rw [List.map_append, Count.exactSum_append] at fits
  exact ⟨once.1, fun p mem => new p (List.mem_append_left _ mem), by omega⟩

/-! ## While a review is under way -/

/-- The events that a review of the class `r`, begun on the site `start`, has reported so far are
those of its plan, and `n` of them are failures of strategies. -/
structure Account (start : Site L) (r : ResourceClass) (n : Nat) (s : Site L) (st : ReviewState)
    (told : List Event) : Prop where
  journal : s.journal = start.journal ++ told
  ours : ∀ e ∈ told, e.review? = some st.review ∧ e.isEnd = false
  units : Count.exactSum (told.filterMap Event.units?) = Count.exactSum (st.planned.map (·.units))
  planned : told.flatMap Event.planned = st.planned.map (·.id)
  failures : told.countP Event.isFailure = n
  queue : s.queue.bare = start.queue.bare
  among : st.planned.Sublist (s.created.drop start.created.length)
  created : start.created <+: s.created
  ofClass : ∀ p ∈ st.planned, p.resource = r
  review : st.review = Id.fresh start.reviews
  knows : ∃ d, st.Only r d ∧
    d.counts.demand = (ClassDemand.ofSnapshot (start.queue.snapshot r)).counts.demand ∧
    d.counts.available = start.queue.availableOf r ∧
    d.counts.inFlight.toNat = Count.exactSum ((start.queue.inFlightOf r).map (·.units)) +
      Count.exactSum (st.planned.map (·.units))

namespace Account

variable {w : Wiring} {start s : Site L} {r : ResourceClass} {n : Nat} {st : ReviewState}
  {told : List Event}

/-- A review begins with nothing to tell. -/
theorem opened (start : Site L) (r : ResourceClass)
    (fits : Count.exactSum ((start.queue.inFlightOf r).map (·.units)) < 4294967296) :
    Account start r 0 (Cycle.opened r start) (Cycle.captured r start) [] where
  journal := (List.append_nil _).symm
  ours := nofun
  units := rfl
  planned := rfl
  failures := rfl
  queue := rfl
  among := List.nil_sublist _
  created := List.prefix_refl _
  ofClass := nofun
  review := rfl
  knows := ⟨_, .captured r start, rfl, rfl, Count.toNat_total_of_lt fits⟩

/-- Calls of providers and look-ups of limits are not told. -/
theorem look (h : Account start r n s st told) (calls : List Call) (budget : Budget Slot) :
    Account start r n { s with calls } { st with budget } told :=
  ⟨h.journal, h.ours, h.units, h.planned, h.failures, h.queue, h.among, h.created, h.ofClass,
    h.review, h.knows⟩

/-- An event that is not about planned capacity. -/
theorem tell (h : Account start r n s st told) (sink : w.sink = .recording) {e : Event}
    (ours : e.review? = some st.review) (going : e.isEnd = false) (units : e.units? = none)
    (planned : e.planned = []) :
    Account start r (if e.isFailure then n + 1 else n) (s.emit w e) st (told ++ [e]) := by
  rw [Site.emit_recording sink]
  refine ⟨?_, ?_, ?_, ?_, ?_, h.queue, h.among, h.created, h.ofClass, h.review, h.knows⟩
  · show s.journal ++ [e] = _
    rw [h.journal, List.append_assoc]
  · intro e' mem
    rcases List.mem_append.1 mem with mem | mem
    · exact h.ours e' mem
    · cases List.mem_singleton.1 mem
      exact ⟨ours, going⟩
  · rw [List.filterMap_append, List.filterMap_cons_none units]
    exact (congrArg _ (List.append_nil _)).trans h.units
  · rw [List.flatMap_append, List.flatMap_singleton, planned, List.append_nil, h.planned]
  · rw [List.countP_append, h.failures, List.countP_singleton]
    split <;> rfl

/-- Capacity that is accepted is told, planned and counted as in flight. -/
theorem plan (h : Account start r n s st told) (sink : w.sink = .recording) (p : ProviderId)
    {planned : List PlannedCapacity} {s' : Site L} (journal : s'.journal = s.journal)
    (queue : s'.queue.bare = start.queue.bare) (created : start.created <+: s'.created)
    (among : (st.planned ++ planned).Sublist (s'.created.drop start.created.length))
    (ofClass : ∀ x ∈ planned, x.resource = r)
    (fits : Count.exactSum ((start.queue.inFlightOf r).map (·.units)) +
      Count.exactSum (st.planned.map (·.units)) + Count.exactSum (planned.map (·.units)) <
        4294967296) :
    Account start r n
      (s'.emit w (.provisionRequested st.review p r.toLabel (PlannedCapacity.totalUnits planned)
        (planned.map (·.id))))
      (st.recordPlanned r p planned).2
      (told ++ [.provisionRequested st.review p r.toLabel (PlannedCapacity.totalUnits planned)
        (planned.map (·.id))]) := by
  have total : (PlannedCapacity.totalUnits planned).toNat =
      Count.exactSum (planned.map (·.units)) := by
    rw [PlannedCapacity.totalUnits, Count.toNat_satSum]
    omega
  rw [Site.emit_recording sink]
  refine ⟨?_, ?_, ?_, ?_, ?_, queue, ?_, created, ?_, ?_, ?_⟩
  · show s'.journal ++ _ = _
    rw [journal, h.journal, List.append_assoc]
  · intro e mem
    rw [ReviewState.review_recordPlanned]
    rcases List.mem_append.1 mem with mem | mem
    · exact h.ours e mem
    · cases List.mem_singleton.1 mem
      exact ⟨rfl, rfl⟩
  · rw [ReviewState.planned_recordPlanned, List.filterMap_append, List.map_append,
      Count.exactSum_append, Count.exactSum_append, h.units, ← total]
    rfl
  · rw [ReviewState.planned_recordPlanned, List.flatMap_append, List.map_append, h.planned]
    exact congrArg _ (List.append_nil _)
  · rw [List.countP_append, h.failures]
    rfl
  · rw [ReviewState.planned_recordPlanned]
    exact among
  · intro x mem
    rw [ReviewState.planned_recordPlanned] at mem
    exact (List.mem_append.1 mem).elim (h.ofClass x) (ofClass x)
  · rw [ReviewState.review_recordPlanned]
    exact h.review
  · obtain ⟨d, only, demand, available, inFlight⟩ := h.knows
    refine ⟨_, only.recordPlanned p planned, demand, available, ?_⟩
    show (d.counts.inFlight.satAdd _).toNat = _
    rw [ReviewState.planned_recordPlanned, Count.toNat_satAdd, inFlight, total, List.map_append,
      Count.exactSum_append]
    omega

variable [Limiter L]

/-- The answer to a request is told. -/
theorem accept (h : Account start r n s st told) (sink : w.sink = .recording)
    (tracker : w.tracker.ChangesOnlyLinks) {q : Request} {a : Answer} (hr : q.resource = r)
    (ofClass : Answer.OfClass q a) (takes : start.Takes r (Engine.accept w q a s st).1.created) :
    ∃ told', Account start r n (Engine.accept w q a s st).1 (Engine.accept w q a s st).2 told' := by
  cases a with
  | error e =>
    exact ⟨_, h.tell (e := .provisionFailed st.review q.provider.id q.resource.toLabel e.message)
      sink rfl rfl rfl rfl⟩
  | ok planned =>
    subst hr
    have grown : (Engine.accept w q (.ok planned) s st).1.created = s.created ++ planned :=
      Engine.accept_created w q _ s st
    rw [grown] at takes
    obtain ⟨before, e⟩ := h.created
    have since : (s.created ++ planned).drop start.created.length =
        s.created.drop start.created.length ++ planned := by
      rw [← e, List.append_assoc, List.drop_left, List.drop_left]
    have created : start.created <+: s.created ++ planned :=
      h.created.trans (List.prefix_append _ _)
    simp only [Engine.accept]
    by_cases none : PlannedCapacity.totalUnits planned = 0
    · rw [if_pos none]
      refine ⟨told, h.journal, h.ours, h.units, h.planned, h.failures, h.queue, ?_, created,
        h.ofClass, h.review, h.knows⟩
      show st.planned.Sublist ((s.created ++ planned).drop _)
      rw [since]
      exact h.among.trans (List.sublist_append_left _ _)
    · rw [if_neg none]
      let next : Site L := { s with
        created := s.created ++ planned
        limiter := planned.foldl Engine.register s.limiter }
      let links := (st.recordPlanned q.resource q.provider.id planned).1
      have queue := congrArg Site.queue (Site.bare_tracks tracker links next)
      obtain ⟨_, _, tracked⟩ := Site.tracks_frame w links next
      have kept : (links.foldl (Site.track w) next).created = s.created ++ planned :=
        Site.tracks_created w links next
      have journal := congrArg Site.journal tracked
      refine ⟨_, h.plan sink q.provider.id journal (queue.trans h.queue) ?_ ?_ ofClass ?_⟩
      · rw [kept]
        exact created
      · rw [kept, since]
        exact h.among.append (List.Sublist.refl _)
      · have fits := takes.fits
        rw [since, List.map_append, Count.exactSum_append] at fits
        have sofar := Count.exactSum_le_of_sublist (h.among.map (·.units))
        omega

/-- A review keeps its account. -/
theorem lockstep {b : Behaviour} {c : Chain L} (sink : w.sink = .recording)
    (tracker : w.tracker.ChangesOnlyLinks) (fails : c.OnlyFails) (gives : b.Gives Answer.OfClass)
    (start : Site L) (r : ResourceClass) :
    Lockstep w b c r (fun _ _ q a a' => a = a' ∧ Answer.OfClass q a) (start.Takes r)
      (fun n x y => x = y ∧ ∃ told, Account start r n x.1 x.2 told) where
  adds := fails.onlyCreates
  early part good := good.early part
  keys := by
    rintro n x _ ⟨rfl, told, h⟩
    obtain ⟨d, only, -⟩ := h.knows
    exact ⟨only.keys, only.keys⟩
  unsatisfied := by
    rintro n x _ ⟨rfl, -⟩
    rfl
  consult := by
    rintro n s st _ _ e p - - ⟨same, told, h⟩
    cases same
    obtain ⟨calls, budget, looked⟩ := e.consult_frame b r p s st
    refine ⟨rfl, rfl, told, ?_⟩
    rw [looked]
    exact h.look calls budget
  ask := by
    rintro n s st _ _ q - ⟨same, told, h⟩
    cases same
    refine ⟨⟨rfl, told, h.look _ st.budget⟩, rfl, ?_⟩
    intro a a' given given'
    exact ⟨Option.some.inj (given.symm.trans given'), gives _ _ _ _ given⟩
  accept := by
    rintro n s st _ _ q a _ hr ⟨same, told, h⟩ ⟨rfl, ofClass⟩ good -
    cases same
    exact ⟨rfl, h.accept sink tracker hr ofClass good⟩
  custom := by
    rintro n s st _ _ name ordinal apply mem ⟨same, told, h⟩
    cases same
    obtain ⟨e, failed⟩ := fails name ordinal apply mem b s st
    rw [failed]
    exact ⟨rfl, _, h.tell (e := .strategyFailed st.review name e.message) sink rfl rfl rfl rfl⟩

end Account

/-! ## When a review is over -/

namespace Queue

/-- A snapshot has as many items as there are that can run. -/
theorem length_snapshot (q : Queue) (r : ResourceClass) :
    (q.snapshot r).items.length = (q.buildable r).length :=
  (arrange_perm _).length_eq.trans (List.length_map _)

/-- The demand for a class does not depend on links and capacity. -/
theorem length_snapshot_congr {q q' : Queue} (h : q.bare.items = q'.bare.items)
    (r : ResourceClass) : (q.snapshot r).items.length = (q'.snapshot r).items.length := by
  simpa using congrArg List.length (snapshot_items_congr h r)

end Queue

/-- The events of a review. -/
def Site.reports (s : Site L) (review : ReviewId) : List Event :=
  s.journal.filter fun e => e.review? == some review

/-- The outcome of a review of the class `r`, which began on the site `start`, the events `told`
that it reported before its end, and the queue say the same. -/
structure Site.Tells (start s : Site L) (r : ResourceClass) (o : Outcome) (told : List Event) :
    Prop where
  resource : o.resource = r
  review : o.review = Id.fresh start.reviews
  journal : s.journal = start.journal ++ told ++ [o.event]
  /-- The last event of the review, and no other, reports an outcome. -/
  reports : start.reports o.review = [] → s.reports o.review = told ++ [o.event]
  ours : ∀ e ∈ told, e.review? = some o.review ∧ e.isEnd = false
  units : Count.exactSum (told.filterMap Event.units?) = o.unitsRequested.toNat
  inFlight : (s.queue.snapshot r).inFlight.toNat =
    (start.queue.snapshot r).inFlight.toNat + o.unitsRequested.toNat
  once : (told.flatMap Event.planned).Nodup
  new : ∀ id ∈ told.flatMap Event.planned, start.queue.inFlight.find? id = none
  added : ∀ id, s.queue.inFlight.contains id = true ↔
    start.queue.inFlight.contains id = true ∨ id ∈ told.flatMap Event.planned
  /-- Providers created the capacity in the order in which it was reported. -/
  order : (told.flatMap Event.planned).Sublist
    ((s.created.drop start.created.length).map (·.id))
  failures : told.countP Event.isFailure = o.strategiesFailed.toNat
  /-- A fresh look at the queue finds the same shortfall. -/
  unsatisfied : ∀ id, o.unsatisfied = (ReviewState.capture id s.queue [r]).unsatisfied r

namespace Account

variable {w : Wiring} {start s : Site L} {r : ResourceClass} {n : Nat} {st : ReviewState}
  {told : List Event}

theorem planned_once (h : Account start r n s st told) (takes : start.Takes r s.created) :
    (st.planned.map (·.id)).Nodup :=
  (h.among.map _).nodup takes.once

theorem planned_new (h : Account start r n s st told) (takes : start.Takes r s.created) :
    ∀ p ∈ st.planned, start.queue.inFlight.find? p.id = none :=
  fun p mem => takes.new p (h.among.mem mem)

/-- The units in flight and those that the review has planned can be counted. -/
theorem fits (h : Account start r n s st told) (takes : start.Takes r s.created) :
    Count.exactSum ((start.queue.inFlightOf r).map (·.units)) +
      Count.exactSum (st.planned.map (·.units)) < 4294967296 := by
  have sofar := Count.exactSum_le_of_sublist (h.among.map (·.units))
  have fits := takes.fits
  omega

theorem toNat_unitsRequested (h : Account start r n s st told) (takes : start.Takes r s.created) :
    st.unitsRequested.toNat = Count.exactSum (st.planned.map (·.units)) := by
  have fits := h.fits takes
  rw [ReviewState.unitsRequested, PlannedCapacity.totalUnits, Count.toNat_satSum]
  omega

/-- All that was planned is of the class, so its units are those that the class gains. -/
theorem exactSum_recorded (h : Account start r n s st told)
    (keyed : PlannedCapacity.Keyed start.queue.inFlight) (takes : start.Takes r s.created) :
    Count.exactSum (((s.queue.recordPending st.planned).inFlightOf r).map (·.units)) =
      Count.exactSum ((start.queue.inFlightOf r).map (·.units)) +
        Count.exactSum (st.planned.map (·.units)) := by
  have flights := Queue.inFlight_of_bare h.queue
  have before : start.queue.inFlightOf r = s.queue.inFlightOf r := by
    unfold Queue.inFlightOf
    rw [flights]
  have absent : ∀ p ∈ s.queue.inFlight.values, p.id ∉ st.planned.map (·.id) := by
    intro p mem listed
    obtain ⟨x, planned, same⟩ := List.mem_map.1 listed
    have found := keyed.find?_iff.2 ⟨rfl, flights ▸ mem⟩
    rw [← same, h.planned_new takes x planned] at found
    cases found
  have capacity := Queue.recordPending_capacity (q := s.queue) (flights ▸ keyed)
    (h.planned_once takes) absent r
  have all : st.planned.filter (·.resource == r) = st.planned :=
    List.filter_eq_self.2 fun p mem => beq_iff_eq.2 (h.ofClass p mem)
  have idle : (s.queue.recordPending st.planned).availableOf r = s.queue.availableOf r := rfl
  rw [all, Queue.capacity, Queue.capacity, idle] at capacity
  rw [before]
  omega

/-- Once it is in flight, a snapshot shows what was planned. -/
theorem snapshot_recorded (h : Account start r n s st told)
    (keyed : PlannedCapacity.Keyed start.queue.inFlight) (takes : start.Takes r s.created) :
    ((s.queue.recordPending st.planned).snapshot r).inFlight.toNat =
      (start.queue.snapshot r).inFlight.toNat + st.unitsRequested.toNat := by
  have fits := h.fits takes
  have gained := h.exactSum_recorded keyed takes
  rw [h.toNat_unitsRequested takes]
  refine (Count.toNat_total_of_lt (by omega)).trans (gained.trans ?_)
  exact congrArg (· + _) (Count.toNat_total_of_lt (by omega)).symm

/-- A fresh look at the queue finds the shortfall that the review ends with. -/
theorem unsatisfied_recorded (h : Account start r n s st told)
    (keyed : PlannedCapacity.Keyed start.queue.inFlight) (takes : start.Takes r s.created)
    (id : ReviewId) : st.unsatisfied r =
      (ReviewState.capture id (s.queue.recordPending st.planned) [r]).unsatisfied r := by
  obtain ⟨d, only, demand, idle, inFlight⟩ := h.knows
  have fits := h.fits takes
  have items : ((s.queue.recordPending st.planned).snapshot r).items.length =
      (start.queue.snapshot r).items.length := by
    have bare : s.queue.bare.items = start.queue.bare.items := congrArg Queue.items h.queue
    exact Queue.length_snapshot_congr (q := s.queue.recordPending st.planned) bare r
  have available : (s.queue.recordPending st.planned).availableOf r = start.queue.availableOf r :=
    congrArg (·.availableOf r) h.queue
  have before : (start.queue.snapshot r).inFlight.toNat =
      Count.exactSum ((start.queue.inFlightOf r).map (·.units)) :=
    Count.toNat_total_of_lt (by omega)
  have fresh : (ReviewState.capture id (s.queue.recordPending st.planned) [r]).Only r
    (.ofSnapshot ((s.queue.recordPending st.planned).snapshot r)) := rfl
  rw [only.unsatisfied, fresh.unsatisfied]
  refine UInt32.toNat_inj.1 ?_
  rw [CapacityCounts.toNat_shortfall, CapacityCounts.toNat_shortfall, demand, idle, inFlight]
  show _ = (Count.ofLength _).toNat - (((s.queue.recordPending st.planned).availableOf r).toNat +
    ((s.queue.recordPending st.planned).snapshot r).inFlight.toNat)
  rw [items, h.snapshot_recorded keyed takes, h.toNat_unitsRequested takes, available, before]
  rfl

/-- A review that ends puts what it told in flight. -/
theorem conclude (h : Account start r n s st told) (sink : w.sink = .recording)
    (keyed : PlannedCapacity.Keyed start.queue.inFlight) (takes : start.Takes r s.created)
    {t : Tally} (failed : t.failed.toNat = n) {s' : Site L} {o : Outcome}
    (concluded : Cycle.conclude w r s st t = (s', .finished o)) : start.Tells s' r o told := by
  simp only [Cycle.conclude, Site.emit_recording sink] at concluded
  cases concluded
  constructor
  case resource => rfl
  case review => exact h.review
  case journal => exact congrArg (· ++ _) h.journal
  case reports =>
    intro unheard
    have all : told.filter (fun e => e.review? == some st.review) = told :=
      List.filter_eq_self.2 fun e mem => beq_iff_eq.2 (h.ours e mem).1
    show (s.journal ++ _).filter _ = _
    rw [h.journal, List.filter_append, List.filter_append, all]
    refine congrArg₂ _ (congrArg (· ++ told) unheard) ?_
    exact List.filter_cons_of_pos (beq_self_eq_true _)
  case ours => exact h.ours
  case units => exact h.units.trans (h.toNat_unitsRequested takes).symm
  case inFlight => exact h.snapshot_recorded keyed takes
  case once => exact h.planned ▸ h.planned_once takes
  case new =>
    rw [h.planned]
    intro id mem
    obtain ⟨p, planned, rfl⟩ := List.mem_map.1 mem
    exact h.planned_new takes p planned
  case added =>
    intro id
    rw [h.planned, ← Queue.inFlight_of_bare h.queue]
    exact PlannedCapacity.contains_store st.planned s.queue.inFlight id
  case order => exact h.planned ▸ h.among.map _
  case failures => exact h.failures.trans failed.symm
  case unsatisfied => exact h.unsatisfied_recorded keyed takes

end Account

/-! ## Runs -/

/-- How far the review of the class `r`, which alone works on the site `start`, has got. -/
def Site.Reviewing (start s : Site L) (b : Behaviour) (c : Chain L) (r : ResourceClass) :
    Option (Cycle L) → Prop
  | none => s = start
  | some (.waiting st cursor) => ∃ n told, cursor.Follows b c r n ∧ Account start r n s st told
  | some (.finished o) => ∃ told, start.Tells s r o told

section Runs

variable [Limiter L] {w : Wiring} {b : Behaviour} {c : Chain L} {r : ResourceClass}

/-- A review that keeps its account waits, or is over and has told everything. -/
theorem Account.reviewing {start s' : Site L} {cycle : Cycle L} (sink : w.sink = .recording)
    (keyed : PlannedCapacity.Keyed start.queue.inFlight) (short : c.length < 4294967296)
    (takes : start.Takes r s'.created)
    (h : Cycle.InStep w b c r (fun n x y => x = y ∧ ∃ told, Account start r n x.1 x.2 told)
      (s', cycle) (s', cycle)) : start.Reviewing s' b c r (some cycle) := by
  cases h with
  | waiting follows h =>
    obtain ⟨-, told, h⟩ := h
    exact ⟨_, told, follows, h⟩
  | @finished n s st _ _ t _ _ failed few h concluded =>
    obtain ⟨-, told, h⟩ := h
    have same : s.created = s'.created := by
      rw [← Cycle.conclude_created w r s st t, ← concluded]
    cases cycle with
    | waiting st cursor => cases concluded
    | finished o =>
      have count : t.failed.toNat = n := by
        rw [failed, UInt32.toNat_ofNat']
        exact Nat.mod_eq_of_lt (by omega)
      exact ⟨told, h.conclude sink keyed (same ▸ takes) count concluded.symm⟩

variable {start : Site L}

/-- Whatever the task of a review does, the review keeps its account. -/
theorem Site.Reviewing.act (sink : w.sink = .recording) (tracker : w.tracker.ChangesOnlyLinks)
    (fails : c.OnlyFails) (short : c.length < 4294967296) (gives : b.Gives Answer.OfClass)
    (keyed : PlannedCapacity.Keyed start.queue.inFlight) {a : Action}
    {x y : Site L × Option (Cycle L)} (reviews : System.Reviews w b c r a x y)
    (ofClass : ∀ {t answer st cursor}, a = .answer t answer → x.2 = some (.waiting st cursor) →
      Answer.OfClass cursor.pause.request answer)
    (takes : start.Takes r y.1.created) (h : start.Reviewing x.1 b c r x.2) :
    start.Reviewing y.1 b c r y.2 := by
  have lock := Account.lockstep sink tracker fails gives start r
  cases reviews with
  | still => exact h
  | @begin s s' cycle begun =>
    obtain rfl : s = start := h
    have fits : Count.exactSum ((s.queue.inFlightOf r).map (·.units)) < 4294967296 := by
      have := takes.fits
      omega
    have good : s.Takes r (Cycle.begin w b c r s).1.created := by
      rw [begun]
      exact takes
    have inStep := lock.begin (s := s) ⟨rfl, [], .opened s r fits⟩ good good
    rw [begun] at inStep
    exact Account.reviewing sink keyed short takes inStep
  | @resume s s' cycle t answer st cursor acted resumed =>
    obtain ⟨n, told, follows, account⟩ := h
    have good : start.Takes r (Cycle.resume w b r st cursor answer s).1.created := by
      rw [resumed]
      exact takes
    have inStep := lock.resume follows (s := s) ⟨rfl, told, account⟩
      ⟨rfl, ofClass acted rfl⟩ good good
    rw [resumed] at inStep
    exact Account.reviewing sink keyed short takes inStep

variable {sys : System L} {h : History L}

/-- A review that runs alone keeps its account. -/
theorem Run.reviewing (sink : w.sink = .recording) (tracker : w.tracker.ChangesOnlyLinks)
    (fails : c.OnlyFails) (short : c.length < 4294967296) (gives : b.Gives Answer.OfClass)
    (keyed : PlannedCapacity.Keyed start.queue.inFlight)
    (run : Run w b c { answers := Answer.OfClass } (System.spawn { site := start } r).2 h sys)
    (alone : ∀ e ∈ h, e.2.task? = some 0) (takes : start.Takes r sys.site.created) :
    ∃ φ, sys.tasks.find? 0 = some ⟨r, φ⟩ ∧ start.Reviewing sys.site b c r φ.cycle? := by
  have begins : (System.spawn { site := start } r).2.Poised b c :=
    (System.Poised.quiet b c start).act (w := w) (b := b) fails (a := .call r) rfl
  induction run with
  | start => exact ⟨.called, System.find?_put _ _ _ _, rfl⟩
  | @next h sys a sys' run allowed acted ih =>
    have own : a.task? = some 0 := alone (sys, a) (List.mem_append_right _ List.mem_cons_self)
    have grows := (run.poised fails begins).created fails acted
    obtain ⟨φ, found, reviewing⟩ :=
      ih (fun e mem => alone e (List.mem_append_left _ mem)) (takes.early grows)
    obtain ⟨ψ, after, reviews⟩ := System.act_review acted own found
    refine ⟨ψ, after, reviewing.act sink tracker fails short gives keyed reviews ?_ takes⟩
    intro t answer st cursor same waits
    subst same
    cases own
    exact allowed _ (System.request?_of_cycle? found waits)

/-- One story. A review that nobody interferes with tells the same by its outcome, by its events, by
the capacity that it put in flight and by a fresh look at the queue. -/
theorem Run.review_tells (sink : w.sink = .recording) (tracker : w.tracker.ChangesOnlyLinks)
    (fails : c.OnlyFails) (short : c.length < 4294967296) (gives : b.Gives Answer.OfClass)
    (keyed : PlannedCapacity.Keyed start.queue.inFlight)
    (run : Run w b c { answers := Answer.OfClass } (System.spawn { site := start } r).2 h sys)
    (alone : ∀ e ∈ h, e.2.task? = some 0) (takes : start.Takes r sys.site.created) {o : Outcome}
    (done : sys.outcome? 0 = some o) : ∃ told, start.Tells sys.site r o told := by
  obtain ⟨φ, found, reviewing⟩ := run.reviewing sink tracker fails short gives keyed alone takes
  simp only [System.outcome?, found, Option.bind_some, Task.outcome?] at done
  cases φ with
  | done o' =>
    cases done
    exact reviewing
  | _ => cases done

end Runs

namespace Sample

/-- The chain after a strategy that fails. -/
def guarded : Chain StaticLimiter :=
  .custom "forecast" 50 (fun _ s st => (.error (.failed "no data"), s, st)) :: chain

/-- Two items wait. -/
def busy : Site StaticLimiter :=
  (start.site.submitBuildable wiring behaviour (item 1)).submitBuildable wiring behaviour (item 2)

/-- The review of the items, to which the second provider delivers nothing. -/
def lone : List Action :=
  [.step 0, .step 0, .step 0, .answer 0 (.error (.provision "full")), .step 0, .step 0]

theorem guarded_onlyFails : guarded.OnlyFails := by
  intro name ordinal apply mem b s st
  rcases List.mem_cons.1 mem with e | mem
  · cases e
    exact ⟨_, rfl⟩
  · exact absurd mem (plain name ordinal apply)

theorem lone_allowed : ∀ a ∈ lone, ∀ sys : System StaticLimiter,
    Terms.Allow { answers := Answer.OfClass } sys a := by
  intro a mem sys
  simp only [lone, List.mem_cons, List.not_mem_nil, or_false] at mem
  rcases mem with rfl | rfl | rfl | rfl | rfl | rfl
  · trivial
  · trivial
  · trivial
  · exact fun _ _ => trivial
  · trivial
  · trivial

end Sample

/-- A review in which a strategy fails, one provider delivers a unit and the other one nothing. -/
theorem reports_of_sample : ∃ h sys o told,
    Run Sample.wiring Sample.behaviour Sample.guarded { answers := Answer.OfClass }
      (System.spawn { site := Sample.busy } .unlabeled).2 h sys ∧
    sys.outcome? 0 = some o ∧ o.strategiesFailed = 1 ∧ o.unitsRequested = 1 ∧ o.unsatisfied = 1 ∧
    Sample.busy.Tells sys.site .unlabeled o told := by
  obtain ⟨h, sys, o, done, takes, finished, counts, own⟩ : ∃ h sys o,
      (System.spawn { site := Sample.busy } .unlabeled).2.replay Sample.wiring Sample.behaviour
        Sample.guarded Sample.lone [] = some (h, sys) ∧
      Sample.busy.Takes .unlabeled sys.site.created ∧ sys.outcome? 0 = some o ∧
      (o.strategiesFailed = 1 ∧ o.unitsRequested = 1 ∧ o.unsatisfied = 1) ∧
      h.map (·.2.task?) = List.replicate 6 (some 0) :=
    ⟨_, _, _, rfl, ⟨by decide, by decide, by decide⟩, rfl, by decide, rfl⟩
  have run := Run.of_replay done .start Sample.lone_allowed
  have keyed : PlannedCapacity.Keyed Sample.busy.queue.inFlight := by
    rw [show Sample.busy.queue.inFlight = ∅ from rfl]
    exact nofun
  have alone : ∀ e ∈ h, e.2.task? = some 0 := fun e mem =>
    List.eq_of_mem_replicate (own ▸ List.mem_map_of_mem mem)
  obtain ⟨told, tells⟩ := Run.review_tells rfl Tracker.changesOnlyLinks_queue
    Sample.guarded_onlyFails (by decide) Sample.gives_ofClass keyed run alone takes finished
  exact ⟨h, sys, o, told, run, finished, counts.1, counts.2.1, counts.2.2, tells⟩

end Muster
