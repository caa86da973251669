import Muster.Proofs.Stage
import Muster.Proofs.Stock

/-!
# Ceilings

No slot of the static limiter ever holds more units than its ceiling allows. A review reads a limit
once and then counts its own budget down. The budget stays good although the limiter changes
meanwhile: only the review of a class registers for the slots of the class, and whatever else
happens to the limiter gives units back.

**Main statement.** `Run.held_le_ceiling`: in every run in which only engines register and providers
give what they are asked for, as their own and of the class.
-/

namespace Muster

open Relation

namespace StaticLimiter

/-- Whether capacity counts against a slot. -/
def against (slot : Slot) (p : PlannedCapacity) : Bool :=
  p.provider == slot.provider && p.resource == slot.resource

/-- The exact number of units that are registered against a slot. -/
def held (l : StaticLimiter) (slot : Slot) : Nat :=
  Count.exactSum ((l.registered slot.provider slot.resource).map (·.units))

/-- The units that a slot may hold; a slot without a ceiling may hold none. -/
def ceiling (l : StaticLimiter) (slot : Slot) : Nat :=
  ((l.ceilings.find? slot).map UInt32.toNat).getD 0

variable {l l' l'' : StaticLimiter} {slot : Slot}

theorem held_eq (l : StaticLimiter) (slot : Slot) :
    l.held slot = l.usage.sumOf fun _ => PlannedCapacity.unitsIf (against slot) :=
  Table.exactSum_filter_values l.usage (against slot) (·.units)

theorem ceiling_lt (l : StaticLimiter) (slot : Slot) : l.ceiling slot < 4294967296 := by
  simp only [ceiling]
  cases l.ceilings.find? slot with
  | none => exact Nat.zero_lt_succ _
  | some units => exact Count.toNat_lt units

theorem ceiling_congr (h : l'.ceilings = l.ceilings) (slot : Slot) :
    l'.ceiling slot = l.ceiling slot := by
  unfold ceiling
  rw [h]

/-- What is in use is what is held as long as that fits. -/
theorem toNat_inUse (h : l.held slot ≤ l.ceiling slot) :
    (l.inUse slot.provider slot.resource).toNat = l.held slot :=
  Count.toNat_total_of_lt (Nat.lt_of_le_of_lt h (l.ceiling_lt slot))

/-! ## Registrations and releases -/

/-- Nothing was registered and no ceiling was changed. -/
structure Eased (l l' : StaticLimiter) : Prop where
  ceilings : l'.ceilings = l.ceilings
  held : ∀ slot, l'.held slot ≤ l.held slot

theorem Eased.refl (l : StaticLimiter) : l.Eased l := ⟨rfl, fun _ => Nat.le_refl _⟩

theorem Eased.of_eq (h : l' = l) : l.Eased l' := h ▸ .refl l

theorem Eased.trans (h : l.Eased l') (h' : l'.Eased l'') : l.Eased l'' :=
  ⟨h'.ceilings.trans h.ceilings, fun slot => Nat.le_trans (h'.held slot) (h.held slot)⟩

theorem eased_release (l : StaticLimiter) (id : PlannedId) : l.Eased (l.release id) := by
  refine ⟨rfl, ?_⟩
  intro slot
  rw [held_eq, held_eq]
  exact l.usage.sumOf_erase_le id _

theorem eased_releases (ids : List PlannedId) (l : StaticLimiter) :
    l.Eased (ids.foldl release l) := by
  induction ids generalizing l with
  | nil => exact .refl l
  | cons id ids ih => exact (eased_release l id).trans (ih _)

theorem register_held_le (l : StaticLimiter) (p : PlannedCapacity) (slot : Slot) :
    (l.register p).held slot ≤ l.held slot + PlannedCapacity.unitsIf (against slot) p := by
  rw [held_eq, held_eq, Nat.add_comm]
  exact l.usage.sumOf_insert_le p.id p _

/-- Registrations add at most their units to a slot. -/
theorem registers_held_le (planned : List PlannedCapacity) (l : StaticLimiter) (slot : Slot) :
    (planned.foldl Engine.register l).held slot ≤
      l.held slot + (planned.map (PlannedCapacity.unitsIf (against slot))).sum := by
  induction planned generalizing l with
  | nil => exact Nat.le_refl _
  | cons p planned ih =>
    have first := l.register_held_le p slot
    have rest := ih (l.register p)
    rw [List.map_cons, List.sum_cons]
    show (planned.foldl Engine.register (l.register p)).held slot ≤ _
    omega

/-- Capacity of one slot is registered against no other. -/
theorem registers_held_slot {planned : List PlannedCapacity} {p : ProviderId} {r : ResourceClass}
    (own : ∀ x ∈ planned, x.provider = p ∧ x.resource = r) (l : StaticLimiter) (slot : Slot) :
    (planned.foldl Engine.register l).held slot ≤ l.held slot +
      if slot = ⟨p, r⟩ then Count.exactSum (planned.map (·.units)) else 0 := by
  have le := registers_held_le planned l slot
  by_cases e : slot = ⟨p, r⟩
  · subst e
    rw [if_pos rfl]
    have all : ∀ x ∈ planned, against ⟨p, r⟩ x = true := by
      intro x hx
      unfold against
      rw [(own x hx).1, (own x hx).2, beq_self_eq_true, beq_self_eq_true]
      rfl
    rwa [PlannedCapacity.sum_unitsIf_all all] at le
  · rw [if_neg e]
    have none : ∀ x ∈ planned, against slot x = false := by
      intro x hx
      by_contra counted
      rw [Bool.not_eq_false, against, (own x hx).1, (own x hx).2, Bool.and_eq_true, beq_iff_eq,
        beq_iff_eq] at counted
      obtain ⟨rfl, rfl⟩ := counted
      exact e rfl
    rwa [PlannedCapacity.sum_unitsIf_none none] at le

theorem registers_ceilings (planned : List PlannedCapacity) (l : StaticLimiter) :
    (planned.foldl Engine.register l).ceilings = l.ceilings := by
  induction planned generalizing l with
  | nil => rfl
  | cons p planned ih => exact ih (l.register p)

end StaticLimiter

/-! ## What is assumed -/

/-- The answer is no capacity at all, or the provider's own of the class, for at most the units in
question. -/
def Answer.Proper (q : Request) : Answer → Prop
  | .error _ => True
  | .ok planned => (∀ p ∈ planned, p.provider = q.provider.id ∧ p.resource = q.resource) ∧
      Count.exactSum (planned.map (·.units)) ≤ q.units.toNat

/-- Strategies of the host register nothing, take no classes into the review and leave the budget
within the limits. -/
def Chain.OnlyEnginesRegister (c : Chain StaticLimiter) : Prop :=
  ∀ name ordinal apply, .custom name ordinal apply ∈ c → ∀ b s st d s' st',
    apply b s st = (d, s', st') →
      (∃ ids : List PlannedId, s'.limiter = ids.foldl StaticLimiter.release s.limiter) ∧
      (∀ r, st.counts? r = none → st'.counts? r = none) ∧
      ∀ slot left', st'.budget.remaining.find? slot = some left' →
        left' ≤ Limiter.leaves s'.limiter slot ∨
          ∃ left, st.budget.remaining.find? slot = some left ∧ left' ≤ left

theorem Chain.Plain.onlyEnginesRegister {c : Chain StaticLimiter} (h : c.Plain) :
    c.OnlyEnginesRegister :=
  fun _ _ _ mem => absurd mem (h _ _ _)

/-! ## The invariant -/

/-- What a look-up gives is really left. -/
theorem StaticLimiter.held_add_leaves_le {l : StaticLimiter} {slot : Slot}
    (h : l.held slot ≤ l.ceiling slot) :
    l.held slot + (Limiter.leaves l slot).toNat ≤ l.ceiling slot := by
  have use := StaticLimiter.toNat_inUse h
  have asked : Limiter.remaining l slot.provider slot.resource =
      l.remaining slot.provider slot.resource := rfl
  rw [remaining] at asked
  cases found : l.ceilings.find? slot with
  | none =>
    rw [found] at asked
    rw [Limiter.leaves_of_error asked]
    exact h
  | some units =>
    rw [found] at asked
    have known : l.ceiling slot = units.toNat := by
      unfold StaticLimiter.ceiling
      rw [found]
      rfl
    rw [Limiter.leaves_of_ok asked, Count.toNat_satSub]
    omega

/-- The review is of one class only, and what it thinks is left for the class is really left. -/
structure ReviewState.Spares (st : ReviewState) (r : ResourceClass) (l : StaticLimiter) : Prop where
  alone : ∀ q, q ≠ r → st.counts? q = none
  budget : ∀ p left, st.budget.remaining.find? ⟨p, r⟩ = some left →
    l.held ⟨p, r⟩ + left.toNat ≤ l.ceiling ⟨p, r⟩

/-- The limiter was changed for the class `r` only, apart from releases. -/
structure StaticLimiter.EasedBut (r : ResourceClass) (l l' : StaticLimiter) : Prop where
  ceilings : l'.ceilings = l.ceilings
  held : ∀ slot, slot.resource ≠ r → l'.held slot ≤ l.held slot

theorem ReviewState.Spares.ease {st : ReviewState} {r : ResourceClass} {l l' : StaticLimiter}
    (h : st.Spares r l) (ceilings : l'.ceilings = l.ceilings)
    (held : ∀ p, l'.held ⟨p, r⟩ ≤ l.held ⟨p, r⟩) : st.Spares r l' := by
  refine ⟨h.alone, ?_⟩
  intro p left found
  have before := h.budget p left found
  have less := held p
  rw [StaticLimiter.ceiling_congr ceilings]
  omega

/-- Every slot is within its ceiling. -/
def StaticLimiter.Within (l : StaticLimiter) : Prop := ∀ slot, l.held slot ≤ l.ceiling slot

theorem StaticLimiter.Within.ease {l l' : StaticLimiter} (h : l.Within) (eased : l.Eased l') :
    l'.Within := by
  intro slot
  rw [StaticLimiter.ceiling_congr eased.ceilings]
  exact Nat.le_trans (eased.held slot) (h slot)

/-! ## Strides -/

section Acceptance

variable {l : StaticLimiter} {st : ReviewState} {q : Request} {planned : List PlannedCapacity}

/-- What is planned is taken from the budget and registered at the same time. -/
theorem ReviewState.Spares.recordPlanned (h : st.Spares q.resource l) (warrant : st.Warrants q)
    (proper : Answer.Proper q (.ok planned)) :
    (st.recordPlanned q.resource q.provider.id planned).2.Spares q.resource
      (planned.foldl Engine.register l) := by
  constructor
  case alone =>
    intro r other
    rw [ReviewState.counts?_recordPlanned, if_neg other]
    exact h.alone r other
  case budget =>
    intro p left' found'
    have now := l.registers_held_slot proper.1 ⟨p, q.resource⟩
    rw [ReviewState.budget_recordPlanned] at found'
    rw [StaticLimiter.ceiling_congr (l.registers_ceilings planned)]
    rcases Table.find?_insert_cases found' with ⟨e, rfl⟩ | ⟨other, old⟩
    · obtain ⟨left, found, allowed⟩ := warrant.allowed
      have spared := h.budget _ left found
      have allowed := UInt32.le_iff_toNat_le.1 allowed
      have units := proper.2
      have total : (PlannedCapacity.totalUnits planned).toNat =
          min (Count.exactSum (planned.map (·.units))) 4294967295 := Count.toNat_satSum _
      have small := Count.toNat_lt q.units
      unfold Table.findD
      rw [found, Option.getD_some, Count.toNat_satSub]
      rw [if_pos e] at now
      rw [e] at now ⊢
      omega
    · rw [if_neg other] at now
      have before := h.budget p left' old
      omega

/-- The budget of the review leaves room for what is registered. -/
theorem StaticLimiter.Within.registers (within : l.Within) (h : st.Spares q.resource l)
    (warrant : st.Warrants q) (proper : Answer.Proper q (.ok planned)) :
    StaticLimiter.Within (planned.foldl Engine.register l) := by
  intro slot
  have now := l.registers_held_slot proper.1 slot
  rw [StaticLimiter.ceiling_congr (l.registers_ceilings planned)]
  by_cases e : slot = ⟨q.provider.id, q.resource⟩
  · obtain ⟨left, found, allowed⟩ := warrant.allowed
    have spared := h.budget _ left found
    have allowed := UInt32.le_iff_toNat_le.1 allowed
    have units := proper.2
    rw [if_pos e] at now
    rw [e] at now ⊢
    omega
  · rw [if_neg e] at now
    exact Nat.le_trans now (within slot)

theorem StaticLimiter.easedBut_registers {p : ProviderId} {r : ResourceClass}
    (own : ∀ x ∈ planned, x.provider = p ∧ x.resource = r) (l : StaticLimiter) :
    l.EasedBut r (planned.foldl Engine.register l) := by
  refine ⟨l.registers_ceilings planned, ?_⟩
  intro slot other
  have now := l.registers_held_slot own slot
  rwa [if_neg fun e => other (congrArg Slot.resource e)] at now

end Acceptance

section Strides

variable {w : Wiring} {b : Behaviour} {c : Chain StaticLimiter}

/-- A look-up takes what is left from the limiter, once. -/
theorem ReviewState.Spares.lookUp {s : Site StaticLimiter} {st : ReviewState} {r : ResourceClass}
    (within : s.limiter.Within) (h : st.Spares r s.limiter) (slot : Slot) :
    (st.remainingLimit slot (Limiter.leaves s.limiter slot)).2.Spares r s.limiter := by
  refine ⟨h.alone, ?_⟩
  intro p left found
  simp only [ReviewState.remainingLimit, Budget.lookUp] at found
  cases known : st.budget.remaining.find? slot with
  | some before =>
    rw [known] at found
    exact h.budget p left found
  | none =>
    rw [known] at found
    rcases Table.find?_insert_cases found with ⟨e, rfl⟩ | ⟨-, old⟩
    · rw [e]
      exact StaticLimiter.held_add_leaves_le (within slot)
    · exact h.budget p left old

/-- Capacity that is accepted is registered and taken from the budget at the same time. -/
theorem ReviewState.Spares.accept {s s' : Site StaticLimiter} {st st' : ReviewState}
    {r : ResourceClass} (within : s.limiter.Within) (h : st.Spares r s.limiter) {q : Request}
    (warrant : st.Warrants q) {a : Answer} (proper : Answer.Proper q a)
    (accepted : Engine.accept w q a s st = (s', st')) :
    st'.Spares r s'.limiter ∧ s'.limiter.Within ∧ s.limiter.EasedBut r s'.limiter := by
  have same : q.resource = r := warrant.resource_eq h.alone
  subst same
  cases a with
  | error e =>
    obtain ⟨stock, state⟩ := Engine.accept_error (w := w) q e s st
    rw [accepted] at stock state
    cases state
    rw [stock.limiter]
    exact ⟨h, within, rfl, fun _ _ => Nat.le_refl _⟩
  | ok planned =>
    obtain ⟨-, ⟨-, limiter, rfl⟩ | ⟨-, limiter, rfl⟩⟩ := Engine.accept_stock accepted
    · rw [limiter]
      exact ⟨h, within, rfl, fun _ _ => Nat.le_refl _⟩
    · rw [limiter]
      exact ⟨h.recordPlanned warrant proper, within.registers h warrant proper,
        s.limiter.easedBut_registers proper.1⟩

/-- A custom strategy may look limits up and count them down, and it may release. -/
theorem ReviewState.Spares.custom {s s' : Site StaticLimiter} {st st' : ReviewState}
    {r : ResourceClass} (within : s.limiter.Within) (h : st.Spares r s.limiter)
    (eased : s.limiter.Eased s'.limiter) (classes : ∀ q, st.counts? q = none → st'.counts? q = none)
    (budget : ∀ slot left', st'.budget.remaining.find? slot = some left' →
      left' ≤ Limiter.leaves s'.limiter slot ∨
        ∃ left, st.budget.remaining.find? slot = some left ∧ left' ≤ left) :
    st'.Spares r s'.limiter := by
  refine ⟨fun q other => classes q (h.alone q other), ?_⟩
  intro p left' found
  rcases budget _ left' found with le | ⟨left, before, le⟩
  · have now := StaticLimiter.held_add_leaves_le ((within.ease eased) ⟨p, r⟩)
    have le := UInt32.le_iff_toNat_le.1 le
    omega
  · have now := (h.ease eased.ceilings fun p => eased.held ⟨p, r⟩).budget p left before
    have le := UInt32.le_iff_toNat_le.1 le
    omega

/-- A stride keeps the slots within their ceilings and the review within its budget. -/
theorem Stride.spares (chain : c.OnlyEnginesRegister) {x y : Site StaticLimiter × ReviewState}
    (stride : Stride w b c Answer.Proper x y) {r : ResourceClass} (within : x.1.limiter.Within)
    (h : x.2.Spares r x.1.limiter) :
    y.2.Spares r y.1.limiter ∧ y.1.limiter.Within ∧ x.1.limiter.EasedBut r y.1.limiter := by
  have still : x.1.limiter.EasedBut r x.1.limiter := ⟨rfl, fun _ _ => Nat.le_refl _⟩
  cases stride with
  | headroom _ _ => exact ⟨h, within, still⟩
  | limit slot _ => exact ⟨h.lookUp within slot, within, still⟩
  | request _ _ _ => exact ⟨h, within, still⟩
  | @accept s st q a warrant proper => exact h.accept (w := w) within warrant proper rfl
  | @custom s st _ _ _ mem =>
    obtain ⟨⟨ids, released⟩, classes, budget⟩ := chain _ _ _ mem b s st _ _ _ rfl
    have eased := StaticLimiter.eased_releases ids s.limiter
    rw [← released] at eased
    exact ⟨h.custom within eased classes budget, within.ease eased, eased.ceilings,
      fun slot _ => eased.held slot⟩
  | @report s st e =>
    show st.Spares r (s.emit w e).limiter ∧ (s.emit w e).limiter.Within ∧
      s.limiter.EasedBut r (s.emit w e).limiter
    rw [(Site.emit_same w e s).limiter]
    exact ⟨h, within, still⟩

end Strides

/-! ## Steps -/

/-- Others only give units back. -/
theorem Move.eased {w : Wiring} {b : Behaviour} (m : Move) (s : Site StaticLimiter) :
    s.limiter.Eased (m.apply w b s).limiter := by
  refine Move.keeps (P := fun s' => s.limiter.Eased s'.limiter) ?_
    (fun _ _ _ _ _ eased => eased) ?_ (.refl _)
  · intro _ _ change eased
    cases change with
    | same same => exact eased.trans (.of_eq same.limiter)
    | spends _ => exact eased
    | retires _ => exact eased.trans (StaticLimiter.eased_release _ _)
  · intro _ id eased
    exact eased.trans (StaticLimiter.eased_release _ id)

namespace Stage

variable {w : Wiring} {b : Behaviour} {c : Chain StaticLimiter} {f g : Stage StaticLimiter}

/-- Every slot is within its ceiling, and every review within its budget. -/
structure Limited (f : Stage StaticLimiter) : Prop where
  within : f.site.limiter.Within
  spares : ∀ r st, f.underway.find? r = some st → st.Spares r f.site.limiter

/-- Releases are fine at any time. -/
theorem Limited.ease (h : f.Limited) {s : Site StaticLimiter}
    (eased : f.site.limiter.Eased s.limiter) : Limited { f with site := s } :=
  ⟨h.within.ease eased, fun r st found =>
    (h.spares r st found).ease eased.ceilings fun p => eased.held ⟨p, r⟩⟩

/-- A review goes on; it changes the limiter for its own class only. -/
theorem Limited.goOn (h : f.Limited) {s : Site StaticLimiter} {r : ResourceClass} {st : ReviewState}
    (spares : st.Spares r s.limiter) (within : s.limiter.Within)
    (eased : f.site.limiter.EasedBut r s.limiter) (snapshots : List (ResourceClass × Snapshot)) :
    Limited ⟨s, f.underway.insert r st, snapshots⟩ := by
  refine ⟨within, ?_⟩
  intro q st' found
  rcases Table.find?_insert_cases found with ⟨rfl, rfl⟩ | ⟨other, old⟩
  · exact spares
  · exact (h.spares q st' old).ease eased.ceilings fun p => eased.held ⟨p, q⟩ other

/-- Every step of a stage keeps it within the limits. -/
theorem Step.limited (chain : c.OnlyEnginesRegister)
    (step : Step w b c { answers := Answer.Proper } f g) (h : f.Limited) :
    g.Limited ∧ g.site.limiter.ceilings = f.site.limiter.ceilings := by
  cases step with
  | @move m _ =>
    have eased := m.eased (w := w) (b := b) f.site
    exact ⟨h.ease eased, eased.ceilings⟩
  | receive _ => exact ⟨h.ease (.refl _), rfl⟩
  | @begin r _ =>
    refine ⟨h.goOn (s := Cycle.opened r f.site) ⟨?_, ?_⟩ h.within
      ⟨rfl, fun _ _ => Nat.le_refl _⟩ _, rfl⟩
    · intro q other
      rw [Cycle.counts?_captured, if_neg other]
    · intro p left found
      cases found
  | @stride r st s st' found stride =>
    obtain ⟨spares, within, eased⟩ := stride.spares chain h.within (h.spares r st found)
    exact ⟨h.goOn spares within eased _, eased.ceilings⟩
  | @conclude r st t found =>
    have same := (Cycle.conclude_stock w r f.site st t).limiter
    have kept : f.site.limiter.Eased (Cycle.conclude w r f.site st t).1.limiter := .of_eq same
    refine ⟨⟨(h.ease kept).within, ?_⟩, kept.ceilings⟩
    intro q st' found'
    obtain ⟨-, old⟩ := Table.find?_of_erase found'
    exact (h.ease kept).spares q st' old

end Stage

/-- What is in use of a slot is counted exactly. It is within the ceiling of the slot, and nothing
is in use without a ceiling. -/
theorem Run.held_le_ceiling {w : Wiring} {b : Behaviour} {c : Chain StaticLimiter}
    (chain : c.OnlyEnginesRegister) (gives : b.Gives Answer.Proper) {ceilings : Table Slot Count}
    {line : RequestLine} {h : History StaticLimiter} {sys : System StaticLimiter}
    (run : Run w b c { answers := Answer.Proper } (.idle { ceilings } line) h sys) (p : ProviderId)
    (r : ResourceClass) :
    (sys.site.limiter.inUse p r).toNat = sys.site.limiter.held ⟨p, r⟩ ∧
      (∀ ceiling, ceilings.find? ⟨p, r⟩ = some ceiling → sys.site.limiter.inUse p r ≤ ceiling) ∧
      (ceilings.find? ⟨p, r⟩ = none → sys.site.limiter.inUse p r = 0) := by
  let site : Site StaticLimiter := { limiter := { ceilings }, line }
  have begins : Stage.Limited { site } :=
    ⟨fun _ => Nat.zero_le _, fun _ _ found => nomatch found⟩
  obtain ⟨f, ⟨limited, same⟩, shows', -⟩ := run.keeps
    (P := fun f => f.Limited ∧ f.site.limiter.ceilings = ceilings)
    (fun f g step ⟨limited, same⟩ =>
      have next := step.limited chain limited
      ⟨next.1, next.2.trans same⟩)
    ⟨begins, rfl⟩ gives
  rw [shows'.site] at same
  have within : sys.site.limiter.held ⟨p, r⟩ ≤ sys.site.limiter.ceiling ⟨p, r⟩ :=
    shows'.site ▸ limited.within ⟨p, r⟩
  have use := StaticLimiter.toNat_inUse within
  unfold StaticLimiter.ceiling at within
  rw [same] at within
  refine ⟨use, ?_, ?_⟩
  · intro ceiling found
    rw [found] at within
    refine UInt32.le_iff_toNat_le.2 ?_
    rw [use]
    exact within
  · intro none
    rw [none] at within
    refine UInt32.toNat_inj.1 ?_
    rw [use]
    exact Nat.le_zero.1 within

theorem Sample.gives_proper : Sample.behaviour.Gives Answer.Proper := by
  intro calls created q a said
  rw [Sample.respond_eq said]
  constructor
  · intro p mem
    rw [List.mem_singleton.1 mem]
    exact ⟨rfl, rfl⟩
  · exact UInt32.le_iff_toNat_le.1 Std.min_le_right

/-- One of the two units of the first provider is in use while the review waits. -/
theorem inUse_of_sample : ∃ h sys, Run Sample.wiring Sample.behaviour Sample.chain
    { answers := Answer.Proper } Sample.start h sys ∧
    sys.site.limiter.inUse (.ofNat 1) .unlabeled = 1 ∧
    sys.site.limiter.inUse (.ofNat 1) .unlabeled ≤ 2 ∧
    sys.site.limiter.inUse (.ofNat 3) .unlabeled = 0 := by
  obtain ⟨h, sys, done, use⟩ : ∃ h sys, Sample.start.replay Sample.wiring Sample.behaviour
      Sample.chain Sample.review [] = some (h, sys) ∧
      sys.site.limiter.inUse (.ofNat 1) .unlabeled = 1 := ⟨_, _, rfl, by decide⟩
  have allowed := Sample.allowed { answers := Answer.Proper } (fun _ => trivial)
    (fun _ _ => trivial)
  have run := Run.of_replay done .start fun a mem => allowed a (List.mem_append_left _ mem)
  have held := Run.held_le_ceiling Sample.plain.onlyEnginesRegister Sample.gives_proper run
  exact ⟨h, sys, run, use, (held (.ofNat 1) .unlabeled).2.1 2 rfl,
    (held (.ofNat 3) .unlabeled).2.2 rfl⟩

end Muster
