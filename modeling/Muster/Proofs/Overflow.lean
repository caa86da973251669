import Mathlib.Algebra.Order.BigOperators.Group.List
import Mathlib.Algebra.Order.Ring.Nat
import Mathlib.Data.List.Dedup
import Muster.Proofs.Submissions
import Muster.Proofs.Sums

/-!
# No sum overflows

Where providers give what they are asked for and only engines plan, every sum that has to fit does,
as long as fewer items were submitted than a count can tell.

Three bounds work together. A slot holds no more than its ceiling, which is a count. A class has no
more capacity than the demand that was seen for it, which is a count too. The sum for a provider
goes over all classes and grows while its review is under way: what other classes had in flight when
the review began is no more than the items that were submitted for them, and what the review adds,
to that and to what its own class had in flight, is no more than the demand that it has seen.
`ReviewState.Reckons` is this last bound, and a review keeps it at every stride.

**Main statement.** `Run.sums_fit`.
-/

namespace Muster

variable {L : Type}

/-! ## The units in flight -/

/-- If no class has more capacity than items, then all that is in flight is what the class `r` has
in flight and no more than the items of other classes. -/
theorem Queue.exactSum_inFlight_le {q : Queue} {items : List WorkItem}
    (capacity : ∀ r, q.capacity r ≤ ofClass items r) (r : ResourceClass) :
    Count.exactSum (q.inFlight.values.map (·.units)) ≤
      (items.length - ofClass items r) + Count.exactSum ((q.inFlightOf r).map (·.units)) := by
  let others := ((q.inFlight.values.map (·.resource)).filter (· ≠ r)).dedup
  have once : (r :: others).Nodup := by
    refine List.nodup_cons.2 ⟨fun mem => ?_, List.nodup_dedup _⟩
    simpa using (List.mem_filter.1 (List.mem_dedup.1 mem)).2
  have all : ∀ p ∈ q.inFlight.values, p.resource ∈ r :: others := by
    intro p mem
    by_cases e : p.resource = r
    · exact e ▸ List.mem_cons_self
    · refine List.mem_cons_of_mem _ (List.mem_dedup.2 (List.mem_filter.2 ⟨?_, by simpa using e⟩))
      exact List.mem_map_of_mem mem
  have byClass := Count.exactSum_by_key once PlannedCapacity.resource PlannedCapacity.units all
  have flying : ∀ k ∈ others, Count.exactSum ((q.inFlightOf k).map (·.units)) ≤ ofClass items k :=
    fun k _ => Nat.le_trans (Nat.le_add_left _ _) (capacity k)
  have rest := List.sum_le_sum flying
  have shared := sum_ofClass_le once items
  rw [List.map_cons, List.sum_cons] at byClass shared
  rw [← byClass]
  show Count.exactSum ((q.inFlightOf r).map (·.units)) +
    (others.map fun k => Count.exactSum ((q.inFlightOf k).map (·.units))).sum ≤ _
  omega

theorem ofClass_le (items : List WorkItem) (r : ResourceClass) :
    ofClass items r ≤ items.length := List.countP_le_length

/-- If no class has more capacity than items, the sums over all that is in flight fit. -/
theorem Queue.fits_of_capacity_le {q : Queue} {items : List WorkItem}
    (few : items.length < 4294967296) (capacity : ∀ r, q.capacity r ≤ ofClass items r) :
    q.Fits := by
  refine .of_total ?_
  have total := exactSum_inFlight_le capacity .unlabeled
  have own := capacity .unlabeled
  have le := ofClass_le items .unlabeled
  unfold Queue.capacity at own
  omega

/-! ## What a review reckons with -/

/-- The review of a class has seen a demand for it of at most `bound`. It knows of no more units of
any provider than its class has in flight, and `others` besides. -/
structure ReviewState.Reckons (st : ReviewState) (r : ResourceClass) (bound others : Nat) :
    Prop where
  alone : ∀ q, q ≠ r → st.counts? q = none
  counted : ∃ counts, st.counts? r = some counts ∧ counts.demand.toNat ≤ bound ∧
    ∀ p, (st.plannedFor p).toNat ≤ others + counts.inFlight.toNat

namespace ReviewState.Reckons

variable {st : ReviewState} {r : ResourceClass} {bound others : Nat} {q : Request}
  {planned : List PlannedCapacity}

/-- Only the counts and the units of providers matter. -/
theorem congr (h : st.Reckons r bound others) {st' : ReviewState}
    (classes : st'.classes = st.classes) (byProvider : st'.plannedByProvider = st.plannedByProvider) :
    st'.Reckons r bound others := by
  have counts : ∀ q, st'.counts? q = st.counts? q := fun q => by
    unfold counts?
    rw [classes]
  have units : ∀ p, st'.plannedFor p = st.plannedFor p := fun p => by
    unfold plannedFor
    rw [byProvider]
  obtain ⟨known, found, demand, reckoned⟩ := h.counted
  exact ⟨fun q other => (counts q).trans (h.alone q other), known, (counts r).trans found, demand,
    fun p => units p ▸ reckoned p⟩

/-- Units that were missing are within the demand, together with those in flight. -/
theorem needed (h : st.Reckons r bound others) (warrant : st.Warrants q)
    (proper : Answer.Proper q (.ok planned)) : q.resource = r ∧
    ∃ counts, st.counts? r = some counts ∧ counts.demand.toNat ≤ bound ∧
      counts.inFlight.toNat + (PlannedCapacity.totalUnits planned).toNat ≤ counts.demand.toNat ∧
      ∀ p, (st.plannedFor p).toNat ≤ others + counts.inFlight.toNat := by
  obtain ⟨counts, known, demand, reckoned⟩ := h.counted
  have same := warrant.resource_eq h.alone
  have needed := UInt32.le_iff_toNat_le.1 warrant.needed
  rw [same, unsatisfied_eq, known, Option.map_some, Option.getD_some,
    CapacityCounts.toNat_shortfall] at needed
  have positive : q.units.toNat ≠ 0 := fun zero => warrant.positive (UInt32.toNat_inj.1 zero)
  have total : (PlannedCapacity.totalUnits planned).toNat =
      min (Count.exactSum (planned.map (·.units))) 4294967295 := Count.toNat_satSum _
  have units := proper.2
  exact ⟨same, counts, known, demand, by omega, reckoned⟩

/-- What is planned can be added to what the review knows of the provider. -/
theorem accept_fits (h : st.Reckons r bound others) (few : bound + others < 4294967296)
    (warrant : st.Warrants q) {a : Answer} (proper : Answer.Proper q a) :
    Engine.AcceptFits q a st := by
  cases a with
  | error e => trivial
  | ok planned =>
    obtain ⟨-, counts, -, demand, needed, reckoned⟩ := h.needed warrant proper
    have known := reckoned q.provider.id
    intro _
    omega

theorem recordPlanned (h : st.Reckons r bound others) (few : bound + others < 4294967296)
    (warrant : st.Warrants q) (proper : Answer.Proper q (.ok planned)) :
    (st.recordPlanned q.resource q.provider.id planned).2.Reckons r bound others := by
  obtain ⟨same, counts, known, demand, needed, reckoned⟩ := h.needed warrant proper
  have flying := Count.toNat_satAdd counts.inFlight (PlannedCapacity.totalUnits planned)
  have small := Count.toNat_lt counts.demand
  rw [same]
  refine ⟨?_, counts.recordPlanned (PlannedCapacity.totalUnits planned), ?_, demand, ?_⟩
  · intro q' other
    rw [counts?_recordPlanned, if_neg other]
    exact h.alone q' other
  · rw [counts?_recordPlanned, if_pos rfl, known]
    rfl
  · intro p
    have before := reckoned p
    show _ ≤ others + (counts.inFlight.satAdd (PlannedCapacity.totalUnits planned)).toNat
    rw [plannedFor_recordPlanned]
    by_cases e : p = q.provider.id
    · rw [if_pos e, UInt32.toNat_add]
      omega
    · rw [if_neg e, UInt32.add_zero]
      omega

end ReviewState.Reckons

/-- A review that begins reckons with the demand for its class, and with what other classes may have
in flight. -/
theorem Cycle.captured_reckons {s : Site L} {r : ResourceClass} {items : List WorkItem}
    (few : items.length < 4294967296) (capacity : ∀ q, s.queue.capacity q ≤ ofClass items q)
    (demand : min (s.queue.snapshot r).items.length 4294967295 ≤ ofClass items r) :
    (Cycle.captured r s).Reckons r (ofClass items r) (items.length - ofClass items r) := by
  refine ⟨?_, (ClassDemand.ofSnapshot (s.queue.snapshot r)).counts, ?_, ?_, ?_⟩
  · intro q other
    rw [counts?_captured, if_neg other]
  · rw [counts?_captured, if_pos rfl]
  · show (Count.ofLength (s.queue.snapshot r).items.length).toNat ≤ _
    rw [Count.toNat_ofLength]
    exact demand
  · intro p
    have fits := Queue.fits_of_capacity_le few capacity
    have flying : (s.queue.snapshot r).inFlight.toNat = _ := Count.toNat_total_of_lt (fits.byClass r)
    have byProvider : ((Cycle.captured r s).plannedFor p).toNat =
        Count.exactSum ((s.queue.inFlight.values.filter (·.provider == p)).map (·.units)) := by
      show (s.queue.inFlightByProvider.findD p 0).toNat = _
      rw [Queue.findD_inFlightByProvider, Count.toNat_total_of_lt (fits.byProvider p)]
    have part := Queue.exactSum_filter_le (·.provider == p) s.queue.inFlight.values
    have total := Queue.exactSum_inFlight_le capacity r
    rw [byProvider]
    show _ ≤ _ + (s.queue.snapshot r).inFlight.toNat
    rw [flying]
    omega

/-! ## What is assumed of the chain -/

/-- Strategies of the host leave alone what the review knows of providers. -/
def Chain.OnlyEnginesReckon (c : Chain L) : Prop :=
  ∀ name ordinal apply, .custom name ordinal apply ∈ c → ∀ b s st d s' st',
    apply b s st = (d, s', st') → st'.plannedByProvider = st.plannedByProvider

/-- Only engines plan, against the one limiter, and nobody else brings anything in. -/
structure Chain.LeftToEngines (c : Chain StaticLimiter) : Prop where
  plan : c.OnlyEnginesPlan
  register : c.OnlyEnginesRegister
  reckon : c.OnlyEnginesReckon
  submitsNothing : c.SubmitsNothing

theorem Chain.Plain.leftToEngines {c : Chain StaticLimiter} (h : c.Plain) : c.LeftToEngines where
  plan := h.onlyEnginesPlan
  register := h.onlyEnginesRegister
  reckon _ _ _ mem := absurd mem (h _ _ _)
  submitsNothing := h.submitsNothing

theorem Tracker.ChangesOnlyLinks.keepsCapacity {tracker : Tracker} (h : tracker.ChangesOnlyLinks) :
    tracker.KeepsCapacity := by
  intro links q link q' tracked
  have same := h links q link q' tracked
  have available : q'.bare.available = q.bare.available := congrArg Queue.available same
  exact ⟨Queue.inFlight_of_bare same, available⟩

theorem Answer.Proper.within {q : Request} {a : Answer} (h : Answer.Proper q a) :
    Answer.Within q a := by
  cases a with
  | error e => trivial
  | ok planned => exact ⟨fun p mem => (h.1 p mem).2, h.2⟩

/-! ## Strides and steps -/

section Strides

variable [Limiter L] {w : Wiring} {b : Behaviour} {c : Chain L}

/-- Where more may be answered, more can happen. -/
theorem Stride.mono {gives gives' : Answering} (more : ∀ q a, gives q a → gives' q a)
    {x y : Site L × ReviewState} (stride : Stride w b c gives x y) : Stride w b c gives' x y := by
  cases stride with
  | headroom he admits => exact .headroom he admits
  | limit slot missing => exact .limit slot missing
  | request he admits prompts => exact .request he admits prompts
  | accept warrant given => exact .accept warrant (more _ _ given)
  | custom mem => exact .custom mem
  | report e => exact .report e

theorem Stage.Step.mono {moves : Move → Prop} {gives gives' : Answering}
    (more : ∀ q a, gives q a → gives' q a) {f g : Stage L}
    (step : Step w b c ⟨moves, gives⟩ f g) : Step w b c ⟨moves, gives'⟩ f g := by
  cases step with
  | move allowed => exact .move allowed
  | receive received => exact .receive received
  | begin none => exact .begin none
  | stride found stride => exact .stride found (stride.mono more)
  | conclude found => exact .conclude found

/-- A stride keeps what the review reckons with. -/
theorem Stride.reckons (chain : c.OnlyEnginesReckon) (plan : c.OnlyEnginesPlan)
    {r : ResourceClass} {bound others : Nat} (few : bound + others < 4294967296)
    {x y : Site L × ReviewState} (stride : Stride w b c Answer.Proper x y)
    (h : x.2.Reckons r bound others) : y.2.Reckons r bound others := by
  cases stride with
  | headroom _ _ | request _ _ _ | report _ => exact h
  | @limit s st slot _ =>
    have known : ∀ limit, (st.remainingLimit slot limit).2.Reckons r bound others :=
      fun _ => h.congr rfl rfl
    exact known _
  | @accept s st q a warrant proper =>
    cases a with
    | error e => exact h
    | ok planned =>
      show (Engine.accept w q (.ok planned) s st).2.Reckons r bound others
      rcases accepted : Engine.accept w q (.ok planned) s st with ⟨s', st'⟩
      obtain ⟨-, ⟨-, -, rfl⟩ | ⟨-, -, rfl⟩⟩ := Engine.accept_stock accepted
      · exact h
      · exact h.recordPlanned few warrant proper
  | @custom s st _ _ _ mem =>
    exact h.congr (plan _ _ _ mem b s st _ _ _ rfl).2.1 (chain _ _ _ mem b s st _ _ _ rfl)

end Strides

namespace Stage

/-- Every review under way reckons with the items that were submitted. -/
def Reckoned (items : List WorkItem) (f : Stage L) : Prop :=
  ∀ r st, f.underway.find? r = some st →
    st.Reckons r (ofClass items r) (items.length - ofClass items r)

theorem Covered.capacity_le {f : Stage L} (h : f.Covered) (r : ResourceClass) :
    f.site.queue.capacity r ≤ f.demandSeen r := by
  cases found : f.underway.find? r with
  | none => exact h.idle r found
  | some st => exact Nat.le_trans (Nat.le_add_right _ _) (h.busy r st found).bounded

variable [Limiter L] {w : Wiring} {b : Behaviour} {c : Chain L} {f g : Stage L}

/-- The demand that was seen does not shrink. -/
theorem Step.demandSeen_le {terms : Terms} (step : Step w b c terms f g) (r : ResourceClass) :
    f.demandSeen r ≤ g.demandSeen r := by
  cases step with
  | begin _ =>
    unfold demandSeen
    rw [peak_append]
    split <;> omega
  | _ => exact Nat.le_refl _

/-- Every step keeps what reviews reckon with, as long as the demand that was seen is that of the
items. -/
theorem Step.reckoned (reckon : c.OnlyEnginesReckon) (plan : c.OnlyEnginesPlan)
    {items : List WorkItem} (few : items.length < 4294967296)
    (step : Step w b c { answers := Answer.Proper } f g) (covered : f.Covered)
    (seen : ∀ r, g.demandSeen r ≤ ofClass items r) (h : f.Reckoned items) : g.Reckoned items := by
  have grown := step.demandSeen_le
  cases step with
  | move _ | receive _ => exact h
  | @begin r _ =>
    intro q st found
    rcases Table.find?_insert_cases found with ⟨rfl, rfl⟩ | ⟨-, old⟩
    · refine Cycle.captured_reckons few ?_ (Nat.le_trans ?_ (seen q))
      · intro k
        exact Nat.le_trans (covered.capacity_le k) (Nat.le_trans (grown k) (seen k))
      · unfold demandSeen
        rw [peak_append, if_pos rfl]
        omega
    · exact h q st old
  | @stride r st s st' found stride =>
    intro q st₁ found₁
    rcases Table.find?_insert_cases found₁ with ⟨rfl, rfl⟩ | ⟨-, old⟩
    · have le := ofClass_le items q
      exact stride.reckons reckon plan (by omega) (h q st found)
    · exact h q st₁ old
  | conclude _ =>
    intro q st found
    exact h q st (Table.find?_of_erase found).2

/-- The three bounds: on classes, on slots, and on the units of providers, as long as the demand
that was seen is that of the items. -/
structure Bounded (items : List WorkItem) (f : Stage StaticLimiter) : Prop where
  covered : f.Covered
  limited : f.Limited
  reckoned : (∀ r, f.demandSeen r ≤ ofClass items r) → f.Reckoned items

theorem bounded_idle (items : List WorkItem) (ceilings : Table Slot Count) (line : RequestLine) :
    Bounded items { site := { limiter := { ceilings }, line } } where
  covered := ⟨fun _ _ => Nat.zero_le _, fun _ _ found => nomatch found⟩
  limited := ⟨fun _ => Nat.zero_le _, fun _ _ found => nomatch found⟩
  reckoned _ _ _ found := nomatch found

theorem Step.bounded {c : Chain StaticLimiter} {f g : Stage StaticLimiter}
    (tracker : w.tracker.ChangesOnlyLinks) (chain : c.LeftToEngines) {items : List WorkItem}
    (few : items.length < 4294967296) (step : Step w b c { answers := Answer.Proper } f g)
    (h : f.Bounded items) : g.Bounded items := by
  have within : Step w b c { answers := Answer.Within } f g :=
    step.mono fun _ _ => Answer.Proper.within
  refine ⟨within.covered tracker.keepsCapacity chain.plan h.covered,
    (step.limited chain.register h.limited).1, fun seen => ?_⟩
  refine step.reckoned chain.reckon chain.plan few h.covered seen (h.reckoned fun r => ?_)
  exact Nat.le_trans (step.demandSeen_le r) (seen r)

end Stage

/-! ## Runs -/

section Runs

variable {w : Wiring} {b : Behaviour} {c : Chain StaticLimiter} {r : ResourceClass}
  {bound others : Nat}

/-- A review within the ceilings, its budget and what it reckons with adds up nothing that does not
fit. -/
theorem Guards.within (chain : c.LeftToEngines) (few : bound + others < 4294967296) :
    Guards w b c fun x => x.1.limiter.Within ∧ x.2.Spares r x.1.limiter ∧
      x.2.Reckons r bound others where
  kept := by
    rintro x y stride ⟨within, spares, reckons⟩
    obtain ⟨spares', within', -⟩ := stride.spares chain.register within spares
    exact ⟨within', spares', stride.reckons chain.reckon chain.plan few reckons⟩
  held _ _ h := h.1.fits
  planned _ _ _ _ h warrant proper := h.2.2.accept_fits few warrant proper

variable {ceilings : Table Slot Count} {line : RequestLine} {h : History StaticLimiter}
  {sys : System StaticLimiter}

/-- What is added up at the end of a run, or by the next action, fits. -/
theorem Run.next_fits (tracker : w.tracker.ChangesOnlyLinks) (chain : c.LeftToEngines)
    (gives : b.Gives Answer.Proper)
    (run : Run w b c { answers := Answer.Proper } (.idle { ceilings } line) h sys)
    (few : h.submitted.length < 4294967296) :
    sys.site.Fits ∧
      ∀ a, Terms.Allow { answers := Answer.Proper } sys a → sys.SumsFit w b c a := by
  generalize items_eq : h.submitted = items at few
  obtain ⟨f, bounded, shown, snaps⟩ := run.keeps
    (fun _ _ step => step.bounded tracker chain few) (Stage.bounded_idle items ceilings line) gives
  have seen : ∀ r, f.demandSeen r ≤ ofClass items r := by
    intro r
    have peak := run.peak_le tracker chain.submitsNothing gives r
    rw [History.peak, ← snaps, items_eq] at peak
    exact Nat.le_trans (Nat.min_le_left _ _) peak
  have capacity : ∀ r, sys.site.queue.capacity r ≤ ofClass items r := fun r =>
    shown.site ▸ Nat.le_trans (bounded.covered.capacity_le r) (seen r)
  have shares : ∀ r, ofClass items r + (items.length - ofClass items r) < 4294967296 := fun r => by
    have le := ofClass_le items r
    omega
  have within : sys.site.limiter.Within := shown.site ▸ bounded.limited.within
  have fits := Queue.fits_of_capacity_le few capacity
  refine ⟨⟨fits, within.fits⟩, fun a allowed => ?_⟩
  cases a with
  | move m =>
    refine m.sumsFit fun r => ?_
    have own := capacity r
    have le := ofClass_le items r
    omega
  | step t =>
    simp only [System.SumsFit]
    split
    · rename_i r k found
      have population := items_eq ▸ run.population_le tracker chain.submitsNothing gives r
      have length := sys.site.queue.length_snapshot_le r
      refine (Guards.within chain (shares r)).begin_fits gives fits ⟨within, ⟨?_, ?_⟩,
        Cycle.captured_reckons few capacity ?_⟩
      · intro q other
        rw [Cycle.counts?_captured, if_neg other]
      · intro p left found
        cases found
      · exact Nat.le_trans (Nat.min_le_left _ _) (Nat.le_trans length population)
    · trivial
  | answer t a =>
    simp only [System.SumsFit]
    split
    · rename_i r k st cursor found
      have under : f.underway.find? r = some st := shown.underway.2 ⟨t, _, found, rfl⟩
      obtain ⟨parts, warrant⟩ : cursor.Fits c ∧ _ := shown.ready found
      have asked : sys.request? t = some cursor.pause.request := by
        simp [System.request?, found, Task.request?]
      exact (Guards.within chain (shares r)).resume_fits gives parts warrant (allowed _ asked)
        ⟨within, shown.site ▸ bounded.limited.spares r st under, bounded.reckoned seen r st under⟩
    · trivial
  | _ => trivial

theorem History.submitted_length_le (h : History StaticLimiter) (rest : History StaticLimiter) :
    h.submitted.length ≤ (History.submitted (h ++ rest)).length := by
  unfold submitted
  rw [List.filterMap_append, List.length_append]
  exact Nat.le_add_right _ _

/-- No sum overflows in a run in which fewer items are submitted than a count can tell: not those
that its actions take on the way, and not those that anybody may take in between. -/
theorem Run.sums_fit (tracker : w.tracker.ChangesOnlyLinks) (chain : c.LeftToEngines)
    (gives : b.Gives Answer.Proper)
    (run : Run w b c { answers := Answer.Proper } (.idle { ceilings } line) h sys)
    (few : h.submitted.length < 4294967296) :
    (∀ x ∈ h, x.1.site.Fits ∧ x.1.SumsFit w b c x.2) ∧ sys.site.Fits := by
  refine ⟨?_, (run.next_fits tracker chain gives few).1⟩
  induction run with
  | start => exact fun _ mem => nomatch mem
  | @next h before a sys run allowed acted ih =>
    have fewer := Nat.lt_of_le_of_lt (h.submitted_length_le [(before, a)]) few
    have here := run.next_fits tracker chain gives fewer
    intro x mem
    rcases List.mem_append.1 mem with earlier | last
    · exact ih fewer x earlier
    · rw [List.mem_singleton.1 last]
      exact ⟨here.1, here.2 a allowed⟩

end Runs

/-- Two items are submitted, one unit is accepted, and the second provider refuses. -/
theorem sums_of_sample : ∃ h sys, Run Sample.wiring Sample.behaviour Sample.chain
    { answers := Answer.Proper } Sample.start h sys ∧ h.submitted.length = 2 ∧ h.length = 7 ∧
    (∀ x ∈ h, x.1.site.Fits ∧ x.1.SumsFit Sample.wiring Sample.behaviour Sample.chain x.2) ∧
    sys.site.Fits := by
  obtain ⟨h, sys, done, two, seven⟩ : ∃ h sys, Sample.start.replay Sample.wiring Sample.behaviour
      Sample.chain Sample.refusal [] = some (h, sys) ∧ h.submitted.length = 2 ∧ h.length = 7 :=
    ⟨_, _, rfl, rfl, rfl⟩
  have run := Run.of_replay done .start
    (Sample.allowed { answers := Answer.Proper } (fun _ => trivial) fun _ _ => trivial)
  have few : h.submitted.length < 4294967296 := by omega
  exact ⟨h, sys, run, two, seven, Run.sums_fit Tracker.changesOnlyLinks_queue
    Sample.plain.leftToEngines Sample.gives_proper run few⟩

end Muster
