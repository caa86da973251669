import Mathlib.Algebra.BigOperators.Group.List.Basic
import Mathlib.Algebra.Ring.Nat
import Mathlib.Data.List.Dedup
import Muster.Count
import Muster.Table

/-!
# Changes of tables, and sums over them

A quantity that is spread over a table, such as the units in flight or the handles on a lock, is a
sum over its entries. An insertion adds the new value and drops the one it replaces, an erasure
drops one, and nothing else matters.

**Main statements.** `sumOf_insert` and `sumOf_of_find?` for sums; `values_insert_perm` and
`values_perm_of_find?` for the values as such; `exactSum_filter_values` reads a filtered sum of
counts as a sum over the table.
-/

namespace Muster

universe u v w

namespace Count

theorem exactSum_append (l m : List Count) : exactSum (l ++ m) = exactSum l + exactSum m := by
  induction l with
  | nil => simp [exactSum]
  | cons c l ih => rw [List.cons_append, exactSum, exactSum, ih, Nat.add_assoc]

theorem exactSum_le_of_sublist {l m : List Count} (h : l.Sublist m) : exactSum l ≤ exactSum m := by
  induction h with
  | slnil => exact Nat.le_refl _
  | cons c _ ih => exact Nat.le_trans ih (Nat.le_add_left _ _)
  | cons_cons c _ ih => exact Nat.add_le_add_left ih _

theorem exactSum_perm {l m : List Count} (h : l.Perm m) : exactSum l = exactSum m := by
  induction h with
  | nil => rfl
  | cons c _ ih => rw [exactSum, exactSum, ih]
  | swap c d l =>
    simp only [exactSum]
    omega
  | trans _ _ ih ih' => exact ih.trans ih'

/-- The sum of words is the exact sum as long as that fits. -/
theorem toNat_total_of_lt {l : List Count} (h : exactSum l < 4294967296) :
    (total l).toNat = exactSum l := by
  rw [toNat_total, Nat.mod_eq_of_lt h]

theorem total_concat (l : List Count) (c : Count) : total (l ++ [c]) = total l + c := by
  simp [total]

/-- One of the keys stands for `a`, and only once. -/
theorem sum_indicator {κ : Type v} [DecidableEq κ] {keys : List κ} (once : keys.Nodup) (a : κ)
    (n : Nat) : (keys.map fun k => if a = k then n else 0).sum = if a ∈ keys then n else 0 := by
  induction keys with
  | nil => simp
  | cons k keys ih =>
    obtain ⟨absent, rest⟩ := List.nodup_cons.1 once
    by_cases e : a = k
    · subst e
      simp [absent, ih rest]
    · simp [e, ih rest]

/-- A sum can be taken key by key. -/
theorem exactSum_by_key {α : Type u} {κ : Type v} [DecidableEq κ] {keys : List κ}
    (once : keys.Nodup) (key : α → κ) (units : α → Count) {l : List α}
    (all : ∀ x ∈ l, key x ∈ keys) :
    (keys.map fun k => exactSum ((l.filter fun x => key x == k).map units)).sum =
      exactSum (l.map units) := by
  induction l with
  | nil => simp [exactSum]
  | cons x l ih =>
    have split : ∀ k, exactSum (((x :: l).filter fun x => key x == k).map units) =
        (if key x = k then (units x).toNat else 0) +
          exactSum ((l.filter fun x => key x == k).map units) := by
      intro k
      by_cases e : key x = k <;> simp [e, exactSum]
    have here := sum_indicator once (key x) (units x).toNat
    rw [if_pos (all x List.mem_cons_self)] at here
    simp only [split, List.sum_map_add, here, ih fun y hy => all y (List.mem_cons_of_mem _ hy),
      List.map_cons, exactSum]

end Count

namespace Table

variable {κ : Type u} {ν : Type v} [Ord κ]

/-- The sum of a function over the entries of a table. -/
def sumOf (f : κ → ν → Nat) (t : Table κ ν) : Nat := (t.entries.map fun e => f e.1 e.2).sum

/-- A sum of counts over the values that pass a test. -/
theorem exactSum_filter_values (t : Table κ ν) (p : ν → Bool) (units : ν → Count) :
    Count.exactSum ((t.values.filter p).map units) =
      t.sumOf fun _ v => if p v then (units v).toNat else 0 := by
  obtain ⟨l, h⟩ := t
  simp only [values, sumOf]
  clear h
  induction l with
  | nil => rfl
  | cons e l ih =>
    simp only [List.map_cons, List.sum_cons, List.filter_cons]
    split
    · rw [List.map_cons, Count.exactSum, ih]
    · rw [ih, Nat.zero_add]

/-- A number of values as a sum over the table. -/
theorem countP_values (t : Table κ ν) (p : ν → Bool) :
    t.values.countP p = t.sumOf fun _ v => if p v then 1 else 0 := by
  obtain ⟨l, h⟩ := t
  simp only [values, sumOf]
  clear h
  induction l with
  | nil => rfl
  | cons e l ih => simp [List.countP_cons, ih, Nat.add_comm]

theorem sumOf_le {t : Table κ ν} {f g : κ → ν → Nat} (h : ∀ k v, f k v ≤ g k v) :
    t.sumOf f ≤ t.sumOf g := by
  unfold sumOf
  induction t.entries with
  | nil => exact Nat.le_refl 0
  | cons e l ih =>
    simp only [List.map_cons, List.sum_cons]
    exact Nat.add_le_add (h e.1 e.2) ih

theorem size_eq_sumOf (t : Table κ ν) : t.size = t.sumOf fun _ _ => 1 := by
  unfold size sumOf
  induction t.entries with
  | nil => rfl
  | cons e l ih => rw [List.length_cons, List.map_cons, List.sum_cons, ← ih, Nat.add_comm]

theorem sumOf_mapValues {μ : Type w} (g : κ → ν → μ) (t : Table κ ν) (f : κ → μ → Nat) :
    (t.mapValues g).sumOf f = t.sumOf fun k v => f k (g k v) := by
  simp [sumOf, mapValues, Function.comp_def]

theorem values_mapValues {μ : Type w} (g : ν → μ) (t : Table κ ν) :
    (t.mapValues fun _ => g).values = t.values.map g := by
  simp [values, mapValues]

theorem keys_mapValues {μ : Type w} (f : κ → ν → μ) (t : Table κ ν) :
    (t.mapValues f).keys = t.keys := by
  simp [keys, mapValues]

theorem keys_ascending (t : Table κ ν) : t.keys.Pairwise fun k k' => compare k k' = .lt :=
  List.pairwise_map.2 t.sorted

theorem keys_nodup [Std.LawfulEqOrd κ] (t : Table κ ν) : t.keys.Nodup := by
  refine t.keys_ascending.imp ?_
  rintro k _ lt rfl
  have self : compare k k = .eq := Std.ReflCmp.compare_self
  rw [self] at lt
  cases lt

/-! ## Look-ups -/

section LookUps

variable [Std.LawfulEqOrd κ] [DecidableEq κ]

theorem find?_of_erase {t : Table κ ν} {k q : κ} {x : ν} (h : (t.erase k).find? q = some x) :
    q ≠ k ∧ t.find? q = some x := by
  rw [find?_erase] at h
  by_cases e : q = k
  · rw [if_pos e] at h
    cases h
  · rw [if_neg e] at h
    exact ⟨e, h⟩

/-- An erasure does not concern values other than the one that is erased. -/
theorem find?_erase_iff {t : Table κ ν} {k q : κ} {v x : ν} (h : t.find? k = some v)
    (other : x ≠ v) : (t.erase k).find? q = some x ↔ t.find? q = some x := by
  rw [find?_erase]
  by_cases e : q = k
  · rw [if_pos e, e, h]
    exact ⟨nofun, fun same => absurd (Option.some.inj same).symm other⟩
  · rw [if_neg e]

theorem mem_values {t : Table κ ν} {v : ν} : v ∈ t.values ↔ ∃ k, t.find? k = some v := by
  simp only [values, List.mem_map, find?_eq_some_iff, Prod.exists, exists_eq_right]

theorem values_eq_map_keys (t : Table κ ν) (d : ν) :
    t.values = t.keys.map fun k => t.findD k d := by
  unfold values keys
  rw [List.map_map]
  refine List.map_congr_left fun e mem => ?_
  have found : t.find? e.1 = some e.2 := find?_eq_some_iff.2 mem
  simp [findD, found]

theorem sumOf_eq_zero {t : Table κ ν} {f : κ → ν → Nat}
    (h : ∀ k v, t.find? k = some v → f k v = 0) : t.sumOf f = 0 := by
  refine List.sum_eq_zero_iff_forall_eq_nat.2 ?_
  intro n hn
  obtain ⟨e, he, rfl⟩ := List.mem_map.1 hn
  exact h e.1 e.2 (find?_eq_some_iff.2 he)

end LookUps

/-! ## Sums over changed tables -/

section Ordered

variable [Std.TransOrd κ] [Std.LawfulEqOrd κ]

theorem values_insert_perm (t : Table κ ν) (k : κ) (v : ν) :
    (t.insert k v).values.Perm (v :: (t.erase k).values) :=
  (t.insert_perm k v).map Prod.snd

theorem sumOf_insert (t : Table κ ν) (k : κ) (v : ν) (f : κ → ν → Nat) :
    (t.insert k v).sumOf f = f k v + (t.erase k).sumOf f := by
  have h := ((t.insert_perm k v).map fun e => f e.1 e.2).sum_nat
  rwa [List.map_cons, List.sum_cons] at h

variable [DecidableEq κ]

theorem sumOf_of_find? {t : Table κ ν} {k : κ} {v : ν} (h : t.find? k = some v)
    (f : κ → ν → Nat) : t.sumOf f = f k v + (t.erase k).sumOf f := by
  have h := ((perm_of_find? h).map fun e => f e.1 e.2).sum_nat
  rwa [List.map_cons, List.sum_cons] at h

/-- Replacing a value shifts the sum by the difference. -/
theorem sumOf_replace {t : Table κ ν} {k : κ} {v : ν} (h : t.find? k = some v) (v' : ν)
    (f : κ → ν → Nat) : (t.insert k v').sumOf f + f k v = t.sumOf f + f k v' := by
  rw [sumOf_insert, sumOf_of_find? h f]
  omega

theorem sumOf_insert_new {t : Table κ ν} {k : κ} (h : t.find? k = none) (v : ν)
    (f : κ → ν → Nat) : (t.insert k v).sumOf f = f k v + t.sumOf f := by
  rw [sumOf_insert, erase_eq_self h]

theorem size_insert_new {t : Table κ ν} {k : κ} (h : t.find? k = none) (v : ν) :
    (t.insert k v).size = t.size + 1 := by
  have grown := sumOf_insert_new h v fun _ _ => 1
  rwa [← size_eq_sumOf, ← size_eq_sumOf, Nat.add_comm] at grown

theorem size_replace {t : Table κ ν} {k : κ} {v : ν} (h : t.find? k = some v) (v' : ν) :
    (t.insert k v').size = t.size := by
  have same := sumOf_replace h v' fun _ _ => 1
  rw [← size_eq_sumOf, ← size_eq_sumOf] at same
  omega

theorem le_sumOf {t : Table κ ν} {k : κ} {v : ν} (h : t.find? k = some v) (f : κ → ν → Nat) :
    f k v ≤ t.sumOf f := by
  rw [sumOf_of_find? h f]
  exact Nat.le_add_right _ _

theorem sumOf_erase_le (t : Table κ ν) (k : κ) (f : κ → ν → Nat) :
    (t.erase k).sumOf f ≤ t.sumOf f := by
  cases h : t.find? k with
  | none => exact Nat.le_of_eq (congrArg _ (erase_eq_self h))
  | some v =>
    rw [sumOf_of_find? h f]
    exact Nat.le_add_left _ _

theorem sumOf_insert_le (t : Table κ ν) (k : κ) (v : ν) (f : κ → ν → Nat) :
    (t.insert k v).sumOf f ≤ f k v + t.sumOf f := by
  rw [sumOf_insert]
  exact Nat.add_le_add_left (t.sumOf_erase_le k f) _

/-! ## Insertions and removals -/

/-- What an insertion leaves at a key. -/
theorem find?_insert_cases {t : Table κ ν} {k q : κ} {v x : ν}
    (h : (t.insert k v).find? q = some x) : q = k ∧ x = v ∨ q ≠ k ∧ t.find? q = some x := by
  rw [find?_insert] at h
  by_cases e : q = k
  · rw [if_pos e] at h
    cases h
    exact .inl ⟨e, rfl⟩
  · rw [if_neg e] at h
    exact .inr ⟨e, h⟩

theorem find?_insert_eq_none {t : Table κ ν} {k q : κ} {v : ν}
    (h : (t.insert k v).find? q = none) : t.find? q = none := by
  rw [find?_insert] at h
  by_cases e : q = k
  · rw [if_pos e] at h
    cases h
  · rwa [if_neg e] at h

/-- A replacement does not concern values other than the old one and the new one. -/
theorem find?_replace_iff {t : Table κ ν} {k q : κ} {v v' x : ν} (h : t.find? k = some v)
    (old : x ≠ v) (new : x ≠ v') : (t.insert k v').find? q = some x ↔ t.find? q = some x := by
  rw [find?_insert]
  by_cases e : q = k
  · rw [if_pos e, e, h]
    exact ⟨fun same => absurd (Option.some.inj same).symm new,
      fun same => absurd (Option.some.inj same).symm old⟩
  · rw [if_neg e]

theorem insert_eq_self {t : Table κ ν} {k : κ} {v : ν} (h : t.find? k = some v) :
    t.insert k v = t := by
  refine ext_find? ?_
  intro q
  rw [find?_insert]
  by_cases e : q = k
  · rw [if_pos e, e, h]
  · rw [if_neg e]

theorem insert_insert (t : Table κ ν) (k : κ) (v v' : ν) :
    (t.insert k v).insert k v' = t.insert k v' := by
  refine ext_find? ?_
  intro q
  rw [find?_insert, find?_insert, find?_insert]
  by_cases e : q = k
  · rw [if_pos e, if_pos e]
  · rw [if_neg e, if_neg e, if_neg e]

theorem erase_comm (t : Table κ ν) (k k' : κ) : (t.erase k).erase k' = (t.erase k').erase k := by
  refine ext_find? fun q => ?_
  simp only [find?_erase]
  split <;> split <;> rfl

theorem modify_eq_insert {t : Table κ ν} {k : κ} {v : ν} (h : t.find? k = some v) (f : ν → ν) :
    t.modify k f = t.insert k (f v) :=
  ext_find? fun q => by rw [find?_modify, find?_insert, h, Option.map_some]

/-! ## Values that are changed everywhere -/

section MapValues

variable {μ : Type w} (f : κ → ν → μ)

theorem mapValues_insert (t : Table κ ν) (k : κ) (v : ν) :
    (t.insert k v).mapValues f = (t.mapValues f).insert k (f k v) := by
  refine ext_find? fun q => ?_
  by_cases e : q = k <;> simp [e]

theorem mapValues_erase (t : Table κ ν) (k : κ) :
    (t.erase k).mapValues f = (t.mapValues f).erase k := by
  refine ext_find? fun q => ?_
  by_cases e : q = k <;> simp [e]

theorem mapValues_mapValues {ξ : Type w} (g : κ → μ → ξ) (t : Table κ ν) :
    (t.mapValues f).mapValues g = t.mapValues fun k v => g k (f k v) :=
  ext_find? fun q => by simp [Function.comp_def]

end MapValues

/-! ## Values -/

theorem values_insert_new {t : Table κ ν} {k : κ} (h : t.find? k = none) (v : ν) :
    (t.insert k v).values.Perm (v :: t.values) := by
  have perm := t.values_insert_perm k v
  rwa [erase_eq_self h] at perm

theorem values_perm_of_find? {t : Table κ ν} {k : κ} {v : ν} (h : t.find? k = some v) :
    t.values.Perm (v :: (t.erase k).values) :=
  (perm_of_find? h).map Prod.snd

/-- Values that pass a test are the same if the entries that pass it are. -/
theorem filter_values_congr {t t' : Table κ ν} {test : ν → Bool}
    (h : ∀ k v, test v = true → (t.find? k = some v ↔ t'.find? k = some v)) :
    t.values.filter test = t'.values.filter test := by
  have sorted : ∀ t : Table κ ν, (t.entries.filter fun e => test e.2).Pairwise
      fun a b => compare a.1 b.1 = .lt := fun t => t.sorted.filter _
  have kept : (⟨_, sorted t⟩ : Table κ ν) = ⟨_, sorted t'⟩ := by
    refine ext_find? fun k => Option.ext fun v => ?_
    simp only [find?_eq_some_iff, List.mem_filter]
    refine and_congr_left fun pass => ?_
    rw [← find?_eq_some_iff, ← find?_eq_some_iff]
    exact h k v pass
  have values : ∀ t : Table κ ν, t.values.filter test =
      (t.entries.filter fun e => test e.2).map Prod.snd := fun t => List.filter_map
  rw [values, values, show t.entries.filter _ = _ from congrArg Table.entries kept]

/-- A table that is filled has the keys of what it is filled with. -/
theorem mem_keys_foldl_insert {α : Type w} (key : α → κ) (value : Table κ ν → α → ν) (l : List α)
    (t : Table κ ν) {k : κ} : k ∈ (l.foldl (fun t x => t.insert (key x) (value t x)) t).keys ↔
      k ∈ t.keys ∨ ∃ x ∈ l, key x = k := by
  induction l generalizing t with
  | nil => simp
  | cons y l ih =>
    have inserted : k ∈ (t.insert (key y) (value t y)).keys ↔ k ∈ t.keys ∨ key y = k := by
      rw [← contains_iff, ← contains_iff, contains, contains, find?_insert]
      by_cases e : k = key y
      · simp [e]
      · simp [e, Ne.symm e]
    rw [List.foldl_cons, ih, inserted, or_assoc, List.exists_mem_cons_iff]

end Ordered

end Table

/-! ## Look-ups of listed keys -/

section Listed

variable {α : Type u} {κ : Type v} [DecidableEq κ] {keys : List κ} {found : κ → Option α}
  {key : α → κ}

/-- What is found under keys that are listed, if what is found tells its key. -/
theorem mem_filterMap_dedup (own : ∀ k a, found k = some a → key a = k) {a : α} :
    a ∈ keys.dedup.filterMap found ↔ key a ∈ keys ∧ found (key a) = some a := by
  simp only [List.mem_filterMap, List.mem_dedup]
  constructor
  · rintro ⟨k, listed, here⟩
    rw [own k a here]
    exact ⟨listed, here⟩
  · rintro ⟨listed, here⟩
    exact ⟨key a, listed, here⟩

theorem nodup_filterMap_dedup (own : ∀ k a, found k = some a → key a = k) :
    (keys.dedup.filterMap found).Nodup :=
  (List.nodup_dedup keys).filterMap fun k k' a here here' =>
    (own k a here).symm.trans (own k' a here')

end Listed

end Muster
