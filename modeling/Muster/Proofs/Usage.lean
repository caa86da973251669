import Mathlib.Data.List.Induction
import Muster.Proofs.Ceilings
import Muster.Proofs.InFlight

/-!
# Usage by last changes

Registrations are kept by identifier, and usage is asked for by slot. A second registration of an
identifier may therefore move units from one slot to another, and a release takes them from wherever
they are. What counts is the last change of each identifier alone: the order in which different
identifiers change does not matter, nor does anything that came before the last change.

Ceilings are set in the same way, slot by slot, and the last setting of a slot counts. Both facts are
one: if each step decides what is found under one key, the last step with a key decides what is found
under it.

**Main statement.** `StaticLimiter.usage_exact`.
-/

namespace Muster

/-- If a step decides what is found under its key and nothing else, the last step with a key decides
what is found under it in the end. -/
theorem find?_foldl {σ α κ ν : Type} [DecidableEq κ] (find? : σ → κ → Option ν) (step : σ → α → σ)
    (key : α → κ) (value : α → Option ν)
    (decides : ∀ s a k, find? (step s a) k = if k = key a then value a else find? s k)
    (steps : List α) (s : σ) (k : κ) : find? (steps.foldl step s) k =
      (steps.reverse.find? fun a => key a = k).elim (find? s k) value := by
  induction steps using List.reverseRecOn with
  | nil => rfl
  | append_singleton steps a ih =>
    rw [List.foldl_concat, decides, ih, List.reverse_concat, List.find?_cons]
    by_cases e : k = key a
    · simp [e]
    · simp [e, Ne.symm e]

namespace StaticLimiter

/-! ## Changes -/

/-- A change of what is registered. -/
inductive Change where
  | register (p : PlannedCapacity)
  | release (id : PlannedId)
deriving DecidableEq

namespace Change

/-- The identifier that is registered or released. -/
def id : Change → PlannedId
  | register p => p.id
  | release id => id

/-- What is registered under the identifier afterwards. -/
def leaves : Change → Option PlannedCapacity
  | register p => some p
  | release _ => none

def apply (l : StaticLimiter) : Change → StaticLimiter
  | register p => l.register p
  | release id => l.release id

/-- The last change of an identifier. -/
def last? (changes : List Change) (id : PlannedId) : Option Change :=
  changes.reverse.find? (·.id = id)

/-- What the last changes of all identifiers leave registered. -/
def live (changes : List Change) : List PlannedCapacity :=
  (changes.map Change.id).dedup.filterMap fun id => (last? changes id).bind leaves

/-- The units of the identifiers whose last change registers them for the slot. -/
def unitsFor (changes : List Change) (slot : Slot) : Nat :=
  Count.exactSum (((live changes).filter (against slot)).map (·.units))

end Change

open Change (last? live unitsFor)

def setCeiling (l : StaticLimiter) (s : Slot × Count) : StaticLimiter :=
  l.withCeiling s.1.provider s.1.resource s.2

/-- The limiter after ceilings were set and capacity was registered and released. -/
def after (settings : List (Slot × Count)) (changes : List Change) : StaticLimiter :=
  changes.foldl Change.apply (settings.foldl setCeiling .empty)

/-- The last ceiling that was set for a slot. -/
def lastCeiling (settings : List (Slot × Count)) (slot : Slot) : Option Count :=
  (settings.reverse.find? (·.1 = slot)).map Prod.snd

/-! ## Look-ups -/

theorem find?_apply (l : StaticLimiter) (c : Change) (id : PlannedId) :
    (c.apply l).usage.find? id = if id = c.id then c.leaves else l.usage.find? id := by
  cases c with
  | register p => exact find?_register l p id
  | release gone => exact find?_release l gone id

theorem find?_setCeiling (l : StaticLimiter) (s : Slot × Count) (slot : Slot) :
    (l.setCeiling s).ceilings.find? slot =
      if slot = s.1 then some s.2 else l.ceilings.find? slot :=
  l.ceilings.find?_insert s.1 slot s.2

theorem ceilings_changes (changes : List Change) (l : StaticLimiter) :
    (changes.foldl Change.apply l).ceilings = l.ceilings := by
  induction changes generalizing l with
  | nil => rfl
  | cons c changes ih =>
    rw [List.foldl_cons, ih]
    cases c <;> rfl

theorem usage_settings (settings : List (Slot × Count)) (l : StaticLimiter) :
    (settings.foldl setCeiling l).usage = l.usage := by
  induction settings generalizing l with
  | nil => rfl
  | cons s settings ih => exact ih _

/-- A limiter is determined by its ceilings and what is registered under each identifier. -/
theorem ext_find? {l l' : StaticLimiter}
    (ceilings : ∀ slot, l.ceilings.find? slot = l'.ceilings.find? slot)
    (usage : ∀ id, l.usage.find? id = l'.usage.find? id) : l = l' := by
  cases l
  cases l'
  exact congrArg₂ mk (Table.ext_find? ceilings) (Table.ext_find? usage)

/-- What is registered under an identifier is what its last change left. -/
theorem find?_usage (settings : List (Slot × Count)) (changes : List Change) (id : PlannedId) :
    (after settings changes).usage.find? id = (last? changes id).bind Change.leaves := by
  have last := find?_foldl (fun l : StaticLimiter => l.usage.find?) Change.apply Change.id
    Change.leaves find?_apply changes (settings.foldl setCeiling .empty) id
  simp only [usage_settings] at last
  refine last.trans ?_
  show (last? changes id).elim none _ = _
  cases last? changes id <;> rfl

/-- The ceiling of a slot is the last one that was set for it. -/
theorem find?_ceilings (settings : List (Slot × Count)) (changes : List Change) (slot : Slot) :
    (after settings changes).ceilings.find? slot = lastCeiling settings slot := by
  have last := find?_foldl (fun l : StaticLimiter => l.ceilings.find?) setCeiling Prod.fst
    (fun s => some s.2) find?_setCeiling settings .empty slot
  rw [after, ceilings_changes, lastCeiling]
  refine last.trans ?_
  cases settings.reverse.find? (·.1 = slot) <;> rfl

/-! ## What is live -/

namespace Change

variable {changes : List Change} {c : Change} {id : PlannedId} {p : PlannedCapacity}

theorem of_last? (found : last? changes id = some c) : c ∈ changes ∧ c.id = id := by
  rw [last?] at found
  have own := List.find?_some found
  exact ⟨List.mem_reverse.1 (List.mem_of_find?_eq_some found), of_decide_eq_true own⟩

theorem last?_eq_none_iff : last? changes id = none ↔ id ∉ changes.map Change.id := by
  simp [last?]

/-- Only identifiers that change have to be compared. -/
theorem last?_congr {changes' : List Change}
    (same : ∀ id ∈ (changes ++ changes').map Change.id, last? changes id = last? changes' id)
    (id : PlannedId) : last? changes id = last? changes' id := by
  by_cases mem : id ∈ (changes ++ changes').map Change.id
  · exact same id mem
  · rw [List.map_append, List.mem_append, not_or] at mem
    rw [last?_eq_none_iff.2 mem.1, last?_eq_none_iff.2 mem.2]

theorem id_of_leaves (left : c.leaves = some p) : p.id = c.id := by
  cases c with
  | register q =>
    cases left
    rfl
  | release _ => cases left

/-- What the last change of an identifier left is capacity of this identifier. -/
theorem id_of_last (id : PlannedId) (p : PlannedCapacity)
    (left : (last? changes id).bind leaves = some p) : p.id = id := by
  obtain ⟨c, found, left⟩ := Option.bind_eq_some_iff.1 left
  exact (id_of_leaves left).trans (of_last? found).2

theorem mem_live : p ∈ live changes ↔ (last? changes p.id).bind leaves = some p := by
  refine (mem_filterMap_dedup id_of_last).trans (and_iff_right_of_imp fun left => ?_)
  obtain ⟨c, found, -⟩ := Option.bind_eq_some_iff.1 left
  obtain ⟨mem, own⟩ := of_last? found
  exact own ▸ List.mem_map_of_mem mem

theorem live_nodup (changes : List Change) : (live changes).Nodup :=
  nodup_filterMap_dedup id_of_last

end Change

theorem keyed_after (settings : List (Slot × Count)) (changes : List Change) :
    PlannedCapacity.Keyed (after settings changes).usage := by
  intro id p found
  rw [find?_usage] at found
  exact Change.id_of_last id p found

/-- What is registered is what is live. -/
theorem values_perm (settings : List (Slot × Count)) (changes : List Change) :
    (after settings changes).usage.values.Perm (live changes) := by
  have keyed := keyed_after settings changes
  refine (List.perm_ext_iff_of_nodup keyed.ids_nodup.of_map (Change.live_nodup changes)).2 ?_
  intro p
  have kept : _ = some p ↔ p.id = p.id ∧ _ := keyed.find?_iff
  rw [find?_usage, ← Change.mem_live] at kept
  simpa using kept.symm

theorem held_after (settings : List (Slot × Count)) (changes : List Change) (slot : Slot) :
    (after settings changes).held slot = unitsFor changes slot :=
  Count.exactSum_perm (((values_perm settings changes).filter _).map _)

/-! ## Use and remaining limits -/

variable {settings : List (Slot × Count)} {changes changes' : List Change} {slot : Slot}

theorem inUse_after (settings : List (Slot × Count)) (fits : unitsFor changes slot < UInt32.size) :
    ((after settings changes).inUse slot.provider slot.resource).toNat =
      unitsFor changes slot := by
  rw [← held_after settings] at fits ⊢
  exact Count.toNat_total_of_lt fits

theorem remaining_after (settings : List (Slot × Count)) (changes : List Change) (slot : Slot) :
    (after settings changes).remaining slot.provider slot.resource =
      match lastCeiling settings slot with
      | none => .error (.unknownProvider slot.provider)
      | some ceiling =>
        .ok (ceiling.satSub ((after settings changes).inUse slot.provider slot.resource)) := by
  have ceiling := find?_ceilings settings changes slot
  rw [← ceiling]
  rfl

/-- Changes with the same last change of each identifier leave the same behind. -/
theorem after_congr (same : ∀ id, last? changes id = last? changes' id) :
    after settings changes = after settings changes' := by
  refine ext_find? (fun slot => ?_) (fun id => ?_)
  · rw [find?_ceilings, find?_ceilings]
  · rw [find?_usage, find?_usage, same]

/-- After ceilings were set, whatever was registered and released then: as long as the units of a
slot are a count, those in use are the units of the identifiers whose last change registers them for
the slot, and what remains is what the last ceiling of the slot has above them. It is an error just
if the slot has no ceiling. Two histories in which each identifier changes last in the same way
leave the same limiter, which answers alike from then on. -/
theorem usage_exact (settings : List (Slot × Count)) (changes : List Change) :
    (∀ slot, unitsFor changes slot < UInt32.size →
      ((after settings changes).inUse slot.provider slot.resource).toNat =
          unitsFor changes slot ∧
        ∀ units, (after settings changes).remaining slot.provider slot.resource = .ok units ↔
          ∃ ceiling, lastCeiling settings slot = some ceiling ∧
            units.toNat = ceiling.toNat - unitsFor changes slot) ∧
    (∀ slot e, (after settings changes).remaining slot.provider slot.resource = .error e ↔
      lastCeiling settings slot = none ∧ e = .unknownProvider slot.provider) ∧
    ∀ changes', (∀ id, last? changes id = last? changes' id) →
      after settings changes = after settings changes' := by
  refine ⟨fun slot fits => ?_, fun slot e => ?_, fun changes' => after_congr⟩
  · have use := inUse_after settings fits
    refine ⟨use, fun units => ?_⟩
    rw [remaining_after]
    cases lastCeiling settings slot with
    | none => simp
    | some ceiling =>
      simp only [Except.ok.injEq, Option.some.injEq, exists_eq_left', ← use, ← Count.toNat_satSub,
        UInt32.toNat_inj]
      exact eq_comm
  · rw [remaining_after]
    cases lastCeiling settings slot with
    | none => simp [eq_comm]
    | some ceiling => simp

end StaticLimiter

/-! ## Capacity that moves -/

namespace Sample

open StaticLimiter (Change)

def linux (provider : Nat) : Slot := ⟨.ofNat provider, .label "linux"⟩

/-- The first provider may have five units, and then seven. -/
def ceilingsSet : List (Slot × Count) := [(linux 1, 5), (linux 1, 7)]

/-- The first capacity moves to another provider and class, the second one shrinks, the third one is released
again, and a fourth one that was never registered is released. -/
def movements : List Change :=
  [.register ⟨.ofNat 10, .ofNat 1, .label "linux", 4⟩,
    .register ⟨.ofNat 11, .ofNat 1, .label "linux", 9⟩,
    .register ⟨.ofNat 10, .ofNat 2, .label "gpu", 2⟩, .release (.ofNat 13),
    .register ⟨.ofNat 12, .ofNat 1, .label "linux", 1⟩,
    .register ⟨.ofNat 11, .ofNat 1, .label "linux", 6⟩, .release (.ofNat 12)]

/-- The last changes alone, in another order. -/
def lastMovements : List Change :=
  [.release (.ofNat 12), .release (.ofNat 13),
    .register ⟨.ofNat 11, .ofNat 1, .label "linux", 6⟩,
    .register ⟨.ofNat 10, .ofNat 2, .label "gpu", 2⟩]

end Sample

namespace StaticLimiter

/-- Six units are left with the first provider, one below its last ceiling; the second one has no
ceiling. -/
theorem usage_of_sample :
    (after Sample.ceilingsSet Sample.movements).inUse (.ofNat 1) (.label "linux") = 6 ∧
    (after Sample.ceilingsSet Sample.movements).remaining (.ofNat 1) (.label "linux") = .ok 1 ∧
    (after Sample.ceilingsSet Sample.movements).remaining (.ofNat 2) (.label "linux") =
      .error (.unknownProvider (.ofNat 2)) ∧
    after Sample.ceilingsSet Sample.movements = after Sample.ceilingsSet Sample.lastMovements := by
  obtain ⟨counts, errors, same⟩ := usage_exact Sample.ceilingsSet Sample.movements
  have six : Change.unitsFor Sample.movements (Sample.linux 1) = 6 := by decide
  have fits : Change.unitsFor Sample.movements (Sample.linux 1) < UInt32.size := by
    rw [six]
    decide
  obtain ⟨use, remains⟩ := counts (Sample.linux 1) fits
  rw [six] at use remains
  refine ⟨UInt32.toNat_inj.1 use, ?_, ?_, same _ ?_⟩
  · exact (remains 1).2 ⟨7, by decide, by decide⟩
  · exact (errors (Sample.linux 2) _).2 ⟨by decide, rfl⟩
  · exact Change.last?_congr (by decide)

end StaticLimiter

end Muster
