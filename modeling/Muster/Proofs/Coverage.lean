import Muster.Proofs.Stage
import Muster.Proofs.Stock

/-!
# No more capacity than demand

A class never has more units, idle, in flight or accepted, than buildable items were found in one of
its snapshots. A review plans against the counts of its snapshot. These may be too high by the time
it ends, since units are spent and capacity is retired in between, but they are never too low: only
the review itself adds units to its class, and it counts those.

**Main statement.** `Run.coverage_le_peak`: in every run in which only engines plan and providers
give at most what they are asked for.
-/

namespace Muster

open Relation

/-! ## Capacity in the queue -/

namespace Queue

/-- The units of a class that are idle or in flight. -/
def capacity (q : Queue) (r : ResourceClass) : Nat :=
  (q.availableOf r).toNat + Count.exactSum ((q.inFlightOf r).map (·.units))

theorem capacity_eq (q : Queue) (r : ResourceClass) : q.capacity r =
    (q.availableOf r).toNat + q.inFlight.sumOf fun _ => PlannedCapacity.unitsIf (·.resource == r) :=
  congrArg _ (Table.exactSum_filter_values q.inFlight (·.resource == r) (·.units))

variable {q q' : Queue}

theorem SameCapacity.capacity_eq (h : q.SameCapacity q') (r : ResourceClass) :
    q'.capacity r = q.capacity r := by
  unfold capacity availableOf inFlightOf
  rw [h.inFlight, h.available]

theorem availableOf_insert {r' : ResourceClass} {n : Count} {a : Table ResourceClass Count}
    (h : q'.available = a.insert r' n) (r : ResourceClass) :
    q'.availableOf r = if r = r' then n else a.findD r 0 := by
  simp only [availableOf, Table.findD, h, Table.find?_insert]
  by_cases e : r = r'
  · rw [if_pos e, if_pos e, Option.getD_some]
  · rw [if_neg e, if_neg e]

/-- The class has one idle unit less. -/
theorem Spends.idle_eq {r : ResourceClass} (h : q.Spends r q') :
    (q'.availableOf r).toNat + 1 = (q.availableOf r).toNat := by
  have positive : 0 < (q.availableOf r).toNat :=
    Nat.pos_of_ne_zero fun zero => h.idle (UInt32.toNat_inj.1 zero)
  have one : (1 : Count) ≤ q.availableOf r := UInt32.le_iff_toNat_le.2 positive
  rw [availableOf_insert h.available, if_pos rfl, UInt32.toNat_sub_of_le _ _ one]
  exact Nat.sub_add_cancel positive

theorem Spends.availableOf_eq {r r' : ResourceClass} (h : q.Spends r' q') (other : r ≠ r') :
    q'.availableOf r = q.availableOf r :=
  (availableOf_insert h.available r).trans (if_neg other)

theorem Spends.capacity_le {r' : ResourceClass} (h : q.Spends r' q') (r : ResourceClass) :
    q'.capacity r ≤ q.capacity r := by
  rw [Queue.capacity_eq, Queue.capacity_eq, h.inFlight]
  refine Nat.add_le_add_right ?_ _
  by_cases e : r = r'
  · rw [e, ← h.idle_eq]
    exact Nat.le_succ _
  · rw [h.availableOf_eq e]

/-- Units that come online leave the flight; a sum that does not fit loses some. -/
theorem Lands.capacity_le {p : PlannedCapacity} {id : PlannedId} (h : q.Lands p id q')
    (r : ResourceClass) : q'.capacity r ≤ q.capacity r := by
  rw [Queue.capacity_eq, Queue.capacity_eq, h.inFlight, availableOf_insert h.available,
    Table.sumOf_of_find? h.flying]
  simp only [PlannedCapacity.unitsIf]
  by_cases e : r = p.resource
  · subst e
    have wraps := UInt32.toNat_add (q.availableOf p.resource) p.units
    have le := Nat.mod_le ((q.availableOf p.resource).toNat + p.units.toNat) (2 ^ 32)
    rw [if_pos rfl, if_pos (beq_self_eq_true _)]
    omega
  · rw [if_neg e]
    show (q.availableOf r).toNat + _ ≤ _
    omega

/-- What is put in flight adds at most its units. -/
theorem recordPending_capacity_le (q : Queue) (planned : List PlannedCapacity) (r : ResourceClass) :
    (q.recordPending planned).capacity r ≤
      q.capacity r + (planned.map (PlannedCapacity.unitsIf (·.resource == r))).sum := by
  induction planned generalizing q with
  | nil => exact Nat.le_refl _
  | cons p planned ih =>
    let next : Queue := { q with inFlight := q.inFlight.insert p.id p }
    have rest := ih next
    have first := q.inFlight.sumOf_insert_le p.id p fun _ =>
      PlannedCapacity.unitsIf (·.resource == r)
    have here : next.capacity r ≤ q.capacity r + PlannedCapacity.unitsIf (·.resource == r) p := by
      rw [Queue.capacity_eq, Queue.capacity_eq]
      show (q.availableOf r).toNat + (q.inFlight.insert p.id p).sumOf _ ≤ _
      omega
    rw [List.map_cons, List.sum_cons]
    show (next.recordPending planned).capacity r ≤ _
    omega

/-- The snapshot counts what is in flight exactly as long as it fits. -/
theorem toNat_snapshot_inFlight (q : Queue) (r : ResourceClass) (fits : q.capacity r < 4294967296) :
    (q.snapshot r).available.toNat + (q.snapshot r).inFlight.toNat = q.capacity r := by
  simp only [capacity] at fits ⊢
  show (q.availableOf r).toNat + (Count.total ((q.inFlightOf r).map (·.units))).toNat = _
  rw [Count.toNat_total_of_lt]
  omega

end Queue

variable {L : Type}

section Changes

variable [Limiter L] {w : Wiring} {b : Behaviour}

theorem Site.Changes.capacity_le {s s' : Site L} (h : s.Changes s') (r : ResourceClass) :
    s'.queue.capacity r ≤ s.queue.capacity r := by
  cases h with
  | same same => exact Nat.le_of_eq (same.queue.capacity_eq r)
  | spends spends => exact spends.capacity_le r
  | retires lands => exact lands.capacity_le r

/-- Nobody but a review brings capacity in. -/
theorem Move.capacity_le (m : Move) (s : Site L) (r : ResourceClass) :
    (m.apply w b s).queue.capacity r ≤ s.queue.capacity r := by
  refine Move.keeps (P := fun s' => s'.queue.capacity r ≤ s.queue.capacity r)
    ?_ ?_ (fun _ _ le => le) (Nat.le_refl _)
  · intro _ _ change le
    exact Nat.le_trans (change.capacity_le r) le
  · intro _ _ _ _ lands le
    exact Nat.le_trans (lands.capacity_le r) le

end Changes

/-! ## What is assumed -/

/-- The answer is no capacity at all, or capacity of the class for at most the units in question. -/
def Answer.Within (q : Request) : Answer → Prop
  | .error _ => True
  | .ok planned => (∀ p ∈ planned, p.resource = q.resource) ∧
      Count.exactSum (planned.map (·.units)) ≤ q.units.toNat

/-- Strategies of the host plan nothing and bring in no capacity. -/
def Chain.OnlyEnginesPlan (c : Chain L) : Prop :=
  ∀ name ordinal apply, .custom name ordinal apply ∈ c → ∀ b s st d s' st',
    apply b s st = (d, s', st') → (∀ r, s'.queue.capacity r ≤ s.queue.capacity r) ∧
      st'.classes = st.classes ∧ st'.planned = st.planned

theorem Chain.Plain.onlyEnginesPlan {c : Chain L} (h : c.Plain) : c.OnlyEnginesPlan :=
  fun _ _ _ mem => absurd mem (h _ _ _)

/-! ## The invariant -/

/-- The largest number of buildable items in a snapshot of the class. -/
def peak (snapshots : List (ResourceClass × Snapshot)) (r : ResourceClass) : Nat :=
  snapshots.foldl (fun n e => if e.1 = r then max n e.2.items.length else n) 0

theorem peak_append (snapshots : List (ResourceClass × Snapshot)) (q r : ResourceClass)
    (snap : Snapshot) : peak (snapshots ++ [(q, snap)]) r =
      if q = r then max (peak snapshots r) snap.items.length else peak snapshots r := by
  unfold peak
  rw [List.foldl_append]
  rfl

namespace ReviewState

/-- The review of a class with `n` units knows of them all, and plans for no more than `bound`. -/
structure Covers (st : ReviewState) (r : ResourceClass) (n bound : Nat) : Prop where
  alone : ∀ q, q ≠ r → st.counts? q = none
  own : ∀ p ∈ st.planned, p.resource = r
  bounded : n + Count.exactSum (st.planned.map (·.units)) ≤ bound
  counted : ∃ counts, st.counts? r = some counts ∧
    n + Count.exactSum (st.planned.map (·.units)) ≤ counts.available.toNat + counts.inFlight.toNat ∧
    counts.demand.toNat ≤ bound

namespace Covers

variable {st : ReviewState} {r : ResourceClass} {n n' bound bound' : Nat}

theorem mono (h : st.Covers r n bound) (hn : n' ≤ n) (hbound : bound ≤ bound') :
    st.Covers r n' bound' := by
  obtain ⟨counts, known, counted, demand⟩ := h.counted
  have bounded := h.bounded
  exact ⟨h.alone, h.own, by omega, counts, known, by omega, by omega⟩

/-- Only the counts and the planned capacity matter. -/
theorem congr (h : st.Covers r n bound) {st' : ReviewState} (classes : st'.classes = st.classes)
    (planned : st'.planned = st.planned) : st'.Covers r n bound := by
  have same : ∀ q, st'.counts? q = st.counts? q := fun q => by
    unfold counts?
    rw [classes]
  obtain ⟨counts, known, counted, demand⟩ := h.counted
  refine ⟨?_, ?_, ?_, counts, ?_, ?_, demand⟩
  · intro q other
    rw [same]
    exact h.alone q other
  · rw [planned]
    exact h.own
  · rw [planned]
    exact h.bounded
  · rw [same]
    exact known
  · rw [planned]
    exact counted

/-- Units that are planned within the request are units that were missing. -/
theorem recordPlanned (h : st.Covers r n bound) {q : Request} (warrant : st.Warrants q)
    {planned : List PlannedCapacity} (within : Answer.Within q (.ok planned)) :
    (st.recordPlanned q.resource q.provider.id planned).2.Covers r n bound := by
  obtain ⟨counts, known, counted, demand⟩ := h.counted
  obtain ⟨class', units⟩ := within
  have same := warrant.resource_eq h.alone
  have needed := UInt32.le_iff_toNat_le.1 warrant.needed
  rw [same, unsatisfied_eq, known, Option.map_some, Option.getD_some,
    CapacityCounts.toNat_shortfall] at needed
  have positive : q.units.toNat ≠ 0 := fun zero => warrant.positive (UInt32.toNat_inj.1 zero)
  have total : (PlannedCapacity.totalUnits planned).toNat =
      min (Count.exactSum (planned.map (·.units))) 4294967295 := Count.toNat_satSum _
  have flying := Count.toNat_satAdd counts.inFlight (PlannedCapacity.totalUnits planned)
  have small := Count.toNat_lt counts.demand
  rw [same]
  refine ⟨?_, ?_, ?_,
    counts.recordPlanned (PlannedCapacity.totalUnits planned), ?_, ?_, demand⟩
  · intro q' other
    rw [counts?_recordPlanned, if_neg other]
    exact h.alone q' other
  · intro p hp
    rw [planned_recordPlanned] at hp
    rcases List.mem_append.1 hp with old | new
    · exact h.own p old
    · exact (class' p new).trans same
  · rw [planned_recordPlanned, List.map_append, Count.exactSum_append]
    omega
  · rw [counts?_recordPlanned, if_pos rfl, known]
    rfl
  · rw [planned_recordPlanned, List.map_append, Count.exactSum_append]
    show _ ≤ counts.available.toNat +
      (counts.inFlight.satAdd (PlannedCapacity.totalUnits planned)).toNat
    omega

end Covers

end ReviewState

/-- A review that begins knows of all the units of its class, as long as they can be counted. -/
theorem Cycle.captured_covers {s : Site L} {r : ResourceClass} {bound : Nat}
    (fits : s.queue.capacity r < 4294967296) (le : s.queue.capacity r ≤ bound)
    (demand : min (s.queue.snapshot r).items.length 4294967295 ≤ bound) :
    (Cycle.captured r s).Covers r (s.queue.capacity r) bound := by
  constructor
  case alone =>
    intro q other
    rw [Cycle.counts?_captured, if_neg other]
  case own =>
    intro p hp
    cases hp
  case bounded => exact le
  case counted =>
    refine ⟨(ClassDemand.ofSnapshot (s.queue.snapshot r)).counts, ?_, ?_, ?_⟩
    · rw [Cycle.counts?_captured, if_pos rfl]
    · exact Nat.le_of_eq (s.queue.toNat_snapshot_inFlight r fits).symm
    · show (Count.ofLength (s.queue.snapshot r).items.length).toNat ≤ bound
      rw [Count.toNat_ofLength]
      exact demand

/-- A stride brings no capacity in, and the review stays aware of its class. -/
theorem Stride.covers [Limiter L] {w : Wiring} {b : Behaviour} {c : Chain L}
    (tracker : w.tracker.KeepsCapacity) (chain : c.OnlyEnginesPlan)
    {x y : Site L × ReviewState} (stride : Stride w b c Answer.Within x y) {r : ResourceClass}
    {n bound : Nat} (h : x.2.Covers r n bound) :
    (∀ q, y.1.queue.capacity q ≤ x.1.queue.capacity q) ∧ y.2.Covers r n bound := by
  cases stride with
  | headroom _ _ => exact ⟨fun _ => Nat.le_refl _, h⟩
  | @limit s st slot _ =>
    have known : ∀ limit, (st.remainingLimit slot limit).2.Covers r n bound :=
      fun _ => h.congr rfl rfl
    exact ⟨fun _ => Nat.le_refl _, known _⟩
  | request _ _ _ => exact ⟨fun _ => Nat.le_refl _, h⟩
  | @accept s st q a warrant within =>
    have queue := Engine.accept_queue tracker q a s st
    refine ⟨fun r => Nat.le_of_eq (queue.capacity_eq r), ?_⟩
    cases a with
    | error e => exact h
    | ok planned =>
      show (Engine.accept w q (.ok planned) s st).2.Covers r n bound
      rcases accepted : Engine.accept w q (.ok planned) s st with ⟨s', st'⟩
      obtain ⟨-, ⟨-, -, rfl⟩ | ⟨-, -, rfl⟩⟩ := Engine.accept_stock accepted
      · exact h
      · exact h.recordPlanned warrant within
  | @custom s st _ _ _ mem =>
    obtain ⟨le, classes, planned⟩ := chain _ _ _ mem b s st _ _ _ rfl
    exact ⟨le, h.congr classes planned⟩
  | @report s st e => exact ⟨fun r => Nat.le_of_eq ((Site.emit_same w e s).queue.capacity_eq r), h⟩

namespace Stage

variable {f : Stage L}

/-- What the units of a class are bounded by. Demand is a count, so it cannot pass the largest. -/
def demandSeen (f : Stage L) (r : ResourceClass) : Nat := min (peak f.snapshots r) 4294967295

/-- Each class is within the demand seen, counting what a review of it has planned. -/
structure Covered (f : Stage L) : Prop where
  idle : ∀ r, f.underway.find? r = none → f.site.queue.capacity r ≤ f.demandSeen r
  busy : ∀ r st, f.underway.find? r = some st →
    st.Covers r (f.site.queue.capacity r) (f.demandSeen r)

namespace Covered

/-- Less capacity is within the same demand. -/
theorem lower (h : f.Covered) {s : Site L}
    (le : ∀ r, s.queue.capacity r ≤ f.site.queue.capacity r) : Covered { f with site := s } :=
  ⟨fun r none => Nat.le_trans (le r) (h.idle r none),
    fun r st found => (h.busy r st found).mono (le r) (Nat.le_refl _)⟩

/-- A review that knows of its class as before goes on in a site with no more capacity. -/
theorem goOn (h : f.Covered) {r : ResourceClass} {st : ReviewState} {s : Site L}
    (le : ∀ r, s.queue.capacity r ≤ f.site.queue.capacity r)
    (hst : st.Covers r (f.site.queue.capacity r) (f.demandSeen r)) :
    Covered { f with site := s, underway := f.underway.insert r st } := by
  constructor
  case idle =>
    intro q none
    exact (h.lower le).idle q (Table.find?_insert_eq_none none)
  case busy =>
    intro q st' found
    rcases Table.find?_insert_cases found with ⟨rfl, rfl⟩ | ⟨-, old⟩
    · exact hst.mono (le q) (Nat.le_refl _)
    · exact (h.lower le).busy q st' old

/-- What a review knows when it begins. -/
theorem begin (h : f.Covered) {r : ResourceClass} (none : f.underway.find? r = none) :
    Covered {
      site := Cycle.opened r f.site
      underway := f.underway.insert r (Cycle.captured r f.site)
      snapshots := f.snapshots ++ [(r, f.site.queue.snapshot r)] } := by
  have grows : ∀ q, f.demandSeen q ≤
      Stage.demandSeen { f with snapshots := f.snapshots ++ [(r, f.site.queue.snapshot r)] } q := by
    intro q
    unfold demandSeen
    rw [peak_append]
    split <;> omega
  constructor
  case idle =>
    intro q none'
    exact Nat.le_trans (h.idle q (Table.find?_insert_eq_none none')) (grows q)
  case busy =>
    intro q st found
    rcases Table.find?_insert_cases found with ⟨rfl, rfl⟩ | ⟨-, old⟩
    · have covered := h.idle q none
      have fits : f.site.queue.capacity q < 4294967296 := by
        simp only [demandSeen] at covered
        omega
      refine Cycle.captured_covers fits (Nat.le_trans covered (grows q)) ?_
      unfold demandSeen
      rw [peak_append, if_pos rfl]
      omega
    · exact (h.busy q st old).mono (Nat.le_refl _) (grows q)

/-- A review that ends puts in flight what it has counted already. -/
theorem conclude (h : f.Covered) {r : ResourceClass} {st : ReviewState}
    (found : f.underway.find? r = some st) (w : Wiring) (t : Tally) :
    Covered { f with
      site := (Cycle.conclude w r f.site st t).1
      underway := f.underway.erase r } := by
  have covers := h.busy r st found
  have recorded := fun q => f.site.queue.recordPending_capacity_le st.planned q
  have after := fun q => (Cycle.conclude_stock w r f.site st t).queue.capacity_eq q
  have others : ∀ q, q ≠ r → (Cycle.conclude w r f.site st t).1.queue.capacity q ≤
      f.site.queue.capacity q := by
    intro q other
    have foreign : ∀ p ∈ st.planned, (p.resource == q) = false := by
      intro p hp
      rw [covers.own p hp]
      exact beq_false_of_ne other.symm
    have le := recorded q
    rw [PlannedCapacity.sum_unitsIf_none foreign] at le
    rw [after q]
    exact le
  constructor
  case idle =>
    intro q none
    by_cases e : q = r
    · subst e
      have le := recorded q
      rw [PlannedCapacity.sum_unitsIf_all fun p hp => beq_iff_eq.2 (covers.own p hp)] at le
      show (Cycle.conclude w q f.site st t).1.queue.capacity q ≤ f.demandSeen q
      rw [after q]
      exact Nat.le_trans le covers.bounded
    · rw [Table.find?_erase, if_neg e] at none
      exact Nat.le_trans (others q e) (h.idle q none)
  case busy =>
    intro q st' found'
    obtain ⟨other, old⟩ := Table.find?_of_erase found'
    exact (h.busy q st' old).mono (others q other) (Nat.le_refl _)

end Covered

/-- Every step of a stage keeps its classes covered. -/
theorem Step.covered [Limiter L] {w : Wiring} {b : Behaviour} {c : Chain L}
    (tracker : w.tracker.KeepsCapacity) (chain : c.OnlyEnginesPlan) {f g : Stage L}
    (step : Step w b c { answers := Answer.Within } f g) (h : f.Covered) : g.Covered := by
  cases step with
  | @move m _ => exact h.lower (m.capacity_le f.site)
  | receive _ => exact h.lower fun _ => Nat.le_refl _
  | begin none => exact h.begin none
  | @stride r st s st' found stride =>
    obtain ⟨le, covers⟩ := stride.covers tracker chain (h.busy r st found)
    exact h.goOn le covers
  | conclude found => exact h.conclude found w _

end Stage

/-! ## Runs -/

/-- The largest number of buildable items that a review has found in a snapshot of the class. -/
def History.peak (h : History L) (r : ResourceClass) : Nat := Muster.peak h.snapshots r

/-- The units that a task's review, while under way, has accepted for a class. -/
def Task.accepted (r : ResourceClass) (task : Task L) : Nat :=
  match task.phase with
  | .waiting _ st _ =>
    if task.resource = r then Count.exactSum (st.planned.map (·.units)) else 0
  | _ => 0

/-- The units of a class that are idle, in flight or accepted by a review under way. -/
def System.coverage (sys : System L) (r : ResourceClass) : Nat :=
  sys.site.queue.capacity r + sys.tasks.sumOf fun _ task => task.accepted r

section Runs

variable [Limiter L] {w : Wiring} {b : Behaviour} {c : Chain L} {f : Stage L} {sys : System L}

omit [Limiter L] in
/-- A task accepts for a class only while its review of the class is under way. -/
theorem Task.accepted_eq_zero {r q : ResourceClass} {φ : Phase L}
    (h : q = r → φ.underway? = none) : Task.accepted r ⟨q, φ⟩ = 0 := by
  cases φ with
  | waiting k st cursor => exact if_neg fun e => nomatch h e
  | _ => rfl

omit [Limiter L] in
/-- The reviews of a class accept what the stage shows, since there is one of them at most. -/
theorem Stage.Shows.accepted_eq (h : f.Shows c sys) (orderly : sys.Orderly) (r : ResourceClass) :
    sys.tasks.sumOf (fun _ task => task.accepted r) =
      ((f.underway.find? r).map fun st => Count.exactSum (st.planned.map (·.units))).getD 0 := by
  cases found : f.underway.find? r with
  | none =>
    refine Table.sumOf_eq_zero fun t ⟨q, φ⟩ ht => Task.accepted_eq_zero ?_
    intro e
    subst e
    cases under : φ.underway? with
    | none => rfl
    | some st =>
      rw [h.underway.2 ⟨t, φ, ht, under⟩] at found
      cases found
  | some st =>
    obtain ⟨t, φ, ht, under⟩ := h.underway.1 found
    obtain ⟨k, held⟩ := Phase.held?_of_underway? under
    have mine : Task.accepted r ⟨r, φ⟩ = Count.exactSum (st.planned.map (·.units)) := by
      cases φ with
      | waiting k st' cursor =>
        cases under
        exact if_pos rfl
      | _ => cases under
    have others : (sys.tasks.erase t).sumOf (fun _ task => task.accepted r) = 0 := by
      refine Table.sumOf_eq_zero fun t' ⟨q, ψ⟩ ht' => Task.accepted_eq_zero ?_
      intro e
      subst e
      obtain ⟨other, old⟩ := Table.find?_of_erase ht'
      cases under' : ψ.underway? with
      | none => rfl
      | some st' => exact absurd (orderly.alone ht held t' ψ st' old under') other
    rw [Table.sumOf_of_find? ht, mine, others]
    rfl

/-- No class is provided with more units than buildable items were found in one of its snapshots. -/
theorem Run.coverage_le_peak (tracker : w.tracker.KeepsCapacity) (chain : c.OnlyEnginesPlan)
    (gives : b.Gives Answer.Within) {limiter : L} {line : RequestLine} {h : History L}
    (run : Run w b c { answers := Answer.Within } (.idle limiter line) h sys) (r : ResourceClass) :
    sys.coverage r ≤ h.peak r := by
  have begins : Stage.Covered { site := ({ limiter, line } : Site L) } :=
    ⟨fun _ _ => Nat.zero_le _, fun _ _ found => nomatch found⟩
  obtain ⟨f, covered, shows', snaps⟩ :=
    run.keeps (fun _ _ step => step.covered tracker chain) begins gives
  have units := shows'.accepted_eq (run.orderly (.idle limiter line)) r
  unfold System.coverage History.peak
  rw [units, ← shows'.site, ← snaps]
  have seen : f.demandSeen r ≤ peak f.snapshots r := Nat.min_le_left _ _
  cases found : f.underway.find? r with
  | none => exact Nat.le_trans (covered.idle r found) seen
  | some st => exact Nat.le_trans (covered.busy r st found).bounded seen

end Runs

theorem Sample.gives_within : Sample.behaviour.Gives Answer.Within := by
  intro calls created q a said
  rw [Sample.respond_eq said]
  constructor
  · intro p mem
    rw [List.mem_singleton.1 mem]
  · exact UInt32.le_iff_toNat_le.1 Std.min_le_right

/-- One unit is accepted while the review waits, and two items were found. -/
theorem coverage_of_sample : ∃ h sys, Run Sample.wiring Sample.behaviour Sample.chain
    { answers := Answer.Within } Sample.start h sys ∧
    sys.coverage .unlabeled = 1 ∧ h.peak .unlabeled = 2 ∧
    sys.coverage .unlabeled ≤ h.peak .unlabeled := by
  obtain ⟨h, sys, done, units, items⟩ : ∃ h sys, Sample.start.replay Sample.wiring Sample.behaviour
      Sample.chain Sample.review [] = some (h, sys) ∧
      sys.coverage .unlabeled = 1 ∧ h.peak .unlabeled = 2 := ⟨_, _, rfl, by decide, rfl⟩
  have allowed := Sample.allowed { answers := Answer.Within } (fun _ => trivial)
    (fun _ _ => trivial)
  have run := Run.of_replay done .start fun a mem => allowed a (List.mem_append_left _ mem)
  refine ⟨h, sys, run, units, items, ?_⟩
  exact Run.coverage_le_peak Tracker.keepsCapacity_queue
    Sample.plain.onlyEnginesPlan Sample.gives_within run .unlabeled

end Muster
