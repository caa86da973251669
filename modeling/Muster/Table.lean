/-!
# Finite tables

A table keeps its entries in strictly ascending key order. Two tables with the same look-ups are
therefore equal (`Table.ext_find?`), and every walk over a table meets the keys in order.

**Main statements.** `find?_insert`, `find?_erase` and `find?_modify` say what each operation does
to look-ups; `insert_perm` and `perm_of_find?` say what it does to the entries, which is what sums
over a table need.
-/

namespace Muster

universe u v w

/-- A finite map: entries in strictly ascending key order. -/
structure Table (κ : Type u) (ν : Type v) [Ord κ] where
  entries : List (κ × ν)
  sorted : entries.Pairwise fun a b => compare a.1 b.1 = .lt

namespace Table

variable {κ : Type u} {ν : Type v} [Ord κ]

/-! ## Entry lists -/

/-- Puts `v` at `k`, replacing an entry of the same key. -/
def insertIn (k : κ) (v : ν) : List (κ × ν) → List (κ × ν)
  | [] => [(k, v)]
  | (k', v') :: rest =>
    match compare k k' with
    | .lt => (k, v) :: (k', v') :: rest
    | .eq => (k, v) :: rest
    | .gt => (k', v') :: insertIn k v rest

/-- The value at `k`. -/
def findIn? (k : κ) : List (κ × ν) → Option ν
  | [] => none
  | (k', v') :: rest => if compare k k' = .eq then some v' else findIn? k rest

theorem mem_insertIn {k : κ} {v : ν} {e : κ × ν} {l : List (κ × ν)}
    (h : e ∈ insertIn k v l) : e = (k, v) ∨ e ∈ l := by
  induction l with
  | nil => exact .inl (by simpa [insertIn] using h)
  | cons x rest ih =>
    obtain ⟨k', v'⟩ := x
    simp only [insertIn] at h
    split at h
    · exact List.mem_cons.1 h
    · rcases List.mem_cons.1 h with h | h
      · exact .inl h
      · exact .inr (List.mem_cons_of_mem _ h)
    · rcases List.mem_cons.1 h with h | h
      · exact .inr (h ▸ List.mem_cons_self)
      · exact (ih h).imp_right (List.mem_cons_of_mem _)

theorem sorted_insertIn [Std.TransOrd κ] [Std.LawfulEqOrd κ] (k : κ) (v : ν)
    {l : List (κ × ν)} (h : l.Pairwise fun a b => compare a.1 b.1 = .lt) :
    (insertIn k v l).Pairwise fun a b => compare a.1 b.1 = .lt := by
  induction l with
  | nil => simp [insertIn]
  | cons x rest ih =>
    obtain ⟨k', v'⟩ := x
    obtain ⟨hx, hrest⟩ := List.pairwise_cons.1 h
    simp only [insertIn]
    split
    · rename_i hlt
      refine List.pairwise_cons.2 ⟨fun e he => ?_, h⟩
      rcases List.mem_cons.1 he with rfl | he
      · exact hlt
      · exact Std.TransCmp.lt_trans hlt (hx e he)
    · rename_i heq
      cases Std.compare_eq_iff_eq.1 heq
      exact List.pairwise_cons.2 ⟨hx, hrest⟩
    · rename_i hgt
      refine List.pairwise_cons.2 ⟨fun e he => ?_, ih hrest⟩
      rcases mem_insertIn he with rfl | he
      · exact Std.OrientedCmp.gt_iff_lt.1 hgt
      · exact hx e he

theorem findIn?_insertIn [Std.LawfulEqOrd κ] [DecidableEq κ] (k q : κ) (v : ν)
    (l : List (κ × ν)) :
    findIn? q (insertIn k v l) = if q = k then some v else findIn? q l := by
  induction l with
  | nil => simp [insertIn, findIn?]
  | cons x rest ih =>
    obtain ⟨k', v'⟩ := x
    simp only [insertIn]
    split
    · simp [findIn?]
    · rename_i heq
      cases Std.compare_eq_iff_eq.1 heq
      simp only [findIn?, Std.compare_eq_iff_eq]
      split <;> simp_all
    · rename_i hgt
      simp only [findIn?, Std.compare_eq_iff_eq, ih]
      by_cases hq : q = k' <;> by_cases hk : q = k <;> simp_all [Std.ReflCmp.compare_self]

/-! ## Tables -/

/-- The table without entries. -/
def empty : Table κ ν := ⟨[], .nil⟩

instance : EmptyCollection (Table κ ν) := ⟨empty⟩
instance : Inhabited (Table κ ν) := ⟨empty⟩

instance [DecidableEq κ] [DecidableEq ν] : DecidableEq (Table κ ν) := fun a b =>
  decidable_of_iff (a.entries = b.entries) (by cases a; cases b; simp)

/-- The value at a key. -/
def find? (t : Table κ ν) (k : κ) : Option ν := findIn? k t.entries

/-- The value at a key, or `d`. -/
def findD (t : Table κ ν) (k : κ) (d : ν) : ν := (t.find? k).getD d

/-- Whether a key has an entry. -/
def contains (t : Table κ ν) (k : κ) : Bool := (t.find? k).isSome

/-- The number of entries. -/
def size (t : Table κ ν) : Nat := t.entries.length

/-- The keys, ascending. -/
def keys (t : Table κ ν) : List κ := t.entries.map Prod.fst

/-- The values, in the order of their keys. -/
def values (t : Table κ ν) : List ν := t.entries.map Prod.snd

/-- Removes the entry of a key. -/
def erase (t : Table κ ν) (k : κ) : Table κ ν :=
  ⟨t.entries.filter fun e => compare k e.1 != .eq, t.sorted.filter _⟩

/-- Changes every value, knowing its key. -/
def mapValues {μ : Type w} (f : κ → ν → μ) (t : Table κ ν) : Table κ μ :=
  ⟨t.entries.map fun e => (e.1, f e.1 e.2), by
    simpa [List.pairwise_map] using t.sorted⟩

/-- Changes the value at one key, if it has one. -/
def modify (t : Table κ ν) (k : κ) (f : ν → ν) : Table κ ν :=
  t.mapValues fun k' v => if compare k k' = .eq then f v else v

section Ordered

variable [Std.TransOrd κ] [Std.LawfulEqOrd κ]

/-- Puts a value at a key, replacing the one that was there. -/
def insert (t : Table κ ν) (k : κ) (v : ν) : Table κ ν :=
  ⟨insertIn k v t.entries, sorted_insertIn k v t.sorted⟩

/-- The table of a list of entries; the last entry of a key wins. -/
def ofList (l : List (κ × ν)) : Table κ ν := l.foldl (fun t e => t.insert e.1 e.2) empty

end Ordered

/-! ## Look-ups -/

@[simp] theorem find?_empty (k : κ) : (empty : Table κ ν).find? k = none := rfl

section LookUps

variable [Std.LawfulEqOrd κ] [DecidableEq κ]

@[simp] theorem find?_insert [Std.TransOrd κ] (t : Table κ ν) (k q : κ) (v : ν) :
    (t.insert k v).find? q = if q = k then some v else t.find? q :=
  findIn?_insertIn k q v t.entries

@[simp] theorem find?_mapValues {μ : Type w} (f : κ → ν → μ) (t : Table κ ν) (q : κ) :
    (t.mapValues f).find? q = (t.find? q).map (f q) := by
  obtain ⟨l, h⟩ := t
  simp only [find?, mapValues]
  clear h
  induction l with
  | nil => rfl
  | cons x rest ih =>
    simp only [List.map_cons, findIn?, ih, Std.compare_eq_iff_eq]
    split
    · rename_i heq
      simp [heq]
    · rfl

@[simp] theorem find?_modify (t : Table κ ν) (k q : κ) (f : ν → ν) :
    (t.modify k f).find? q = if q = k then (t.find? k).map f else t.find? q := by
  simp only [modify, find?_mapValues, Std.compare_eq_iff_eq]
  by_cases h : q = k
  · subst h
    simp
  · simp [h, Ne.symm h]

@[simp] theorem find?_erase (t : Table κ ν) (k q : κ) :
    (t.erase k).find? q = if q = k then none else t.find? q := by
  obtain ⟨l, h⟩ := t
  simp only [find?, erase]
  clear h
  induction l with
  | nil => simp [findIn?]
  | cons x rest ih =>
    by_cases hx : k = x.1
    · simp only [List.filter_cons, hx, Std.ReflCmp.compare_self, bne_self_eq_false]
      simp only [hx] at ih
      simp only [Bool.false_eq_true, if_false, ih, findIn?, Std.compare_eq_iff_eq]
      split <;> simp_all
    · have hne : (compare k x.1 != .eq) = true := by
        simpa [bne_iff_ne, Std.compare_eq_iff_eq] using hx
      simp only [List.filter_cons, hne, if_true, findIn?, ih, Std.compare_eq_iff_eq]
      by_cases hq : q = k <;> simp_all

theorem find?_eq_some_iff {t : Table κ ν} {k : κ} {v : ν} :
    t.find? k = some v ↔ (k, v) ∈ t.entries := by
  obtain ⟨l, h⟩ := t
  simp only [find?]
  induction l with
  | nil => simp [findIn?]
  | cons x rest ih =>
    obtain ⟨k', v'⟩ := x
    obtain ⟨hx, hrest⟩ := List.pairwise_cons.1 h
    simp only [findIn?, Std.compare_eq_iff_eq]
    by_cases hk : k = k'
    · subst hk
      simp only [if_true, Option.some.injEq, List.mem_cons, Prod.mk.injEq, true_and]
      refine ⟨fun h => .inl h.symm, fun h => ?_⟩
      rcases h with h | h
      · exact h.symm
      · have := hx _ h
        simp [Std.ReflCmp.compare_self] at this
    · simp [hk, ih hrest]

theorem contains_iff {t : Table κ ν} {k : κ} : t.contains k = true ↔ k ∈ t.keys := by
  simp only [contains, Option.isSome_iff_exists, find?_eq_some_iff, keys, List.mem_map, Prod.exists,
    exists_and_right, exists_eq_right]

/-- A table is determined by its look-ups. -/
theorem ext_find? [Std.TransOrd κ] {s t : Table κ ν} (h : ∀ k, s.find? k = t.find? k) : s = t := by
  obtain ⟨l, hl⟩ := s
  obtain ⟨m, hm⟩ := t
  suffices l = m by subst this; rfl
  have hmem : ∀ e, e ∈ l ↔ e ∈ m := fun e => by
    have := h e.1
    rw [← find?_eq_some_iff (t := ⟨l, hl⟩) (k := e.1) (v := e.2), this, find?_eq_some_iff]
  clear h
  induction l generalizing m with
  | nil =>
    cases m with
    | nil => rfl
    | cons y _ => exact absurd ((hmem y).2 List.mem_cons_self) List.not_mem_nil
  | cons x l ih =>
    cases m with
    | nil => exact absurd ((hmem x).1 List.mem_cons_self) List.not_mem_nil
    | cons y m =>
      obtain ⟨hx, hl'⟩ := List.pairwise_cons.1 hl
      obtain ⟨hy, hm'⟩ := List.pairwise_cons.1 hm
      have hirr : ∀ a : κ × ν, compare a.1 a.1 ≠ .lt := fun a => by
        simp [Std.ReflCmp.compare_self]
      have hxy : x = y := by
        rcases List.mem_cons.1 ((hmem x).1 List.mem_cons_self) with e | hxm
        · exact e
        rcases List.mem_cons.1 ((hmem y).2 List.mem_cons_self) with e | hym
        · exact e.symm
        exact absurd (Std.TransCmp.lt_trans (hx y hym) (hy x hxm)) (hirr x)
      subst hxy
      rw [ih hl' m hm' fun e => ⟨fun he => ?_, fun he => ?_⟩]
      · rcases List.mem_cons.1 ((hmem e).1 (List.mem_cons_of_mem _ he)) with rfl | h
        · exact absurd (hx e he) (hirr e)
        · exact h
      · rcases List.mem_cons.1 ((hmem e).2 (List.mem_cons_of_mem _ he)) with rfl | h
        · exact absurd (hy e he) (hirr e)
        · exact h

theorem erase_eq_self [Std.TransOrd κ] {t : Table κ ν} {k : κ} (h : t.find? k = none) :
    t.erase k = t :=
  ext_find? fun q => by
    rw [find?_erase]
    split
    · rename_i e
      rw [e, h]
    · rfl

end LookUps

/-! ## Entries up to order -/

section Entries

variable [Std.TransOrd κ] [Std.LawfulEqOrd κ]

/-- Inserting adds one entry and drops the one it replaces. -/
theorem insert_perm (t : Table κ ν) (k : κ) (v : ν) :
    (t.insert k v).entries.Perm ((k, v) :: (t.erase k).entries) := by
  obtain ⟨l, h⟩ := t
  simp only [insert, erase]
  induction l with
  | nil => exact .refl _
  | cons x rest ih =>
    obtain ⟨k', v'⟩ := x
    obtain ⟨hx, hrest⟩ := List.pairwise_cons.1 h
    simp only [insertIn]
    split
    · rename_i hlt
      have hall : ((k', v') :: rest).filter (fun e => compare k e.1 != .eq) = (k', v') :: rest := by
        refine List.filter_eq_self.2 fun e he => ?_
        rcases List.mem_cons.1 he with rfl | he
        · simp [hlt]
        · simp [Std.TransCmp.lt_trans hlt (hx e he)]
      rw [hall]
    · rename_i heq
      cases Std.compare_eq_iff_eq.1 heq
      have hall : rest.filter (fun e => compare k e.1 != .eq) = rest :=
        List.filter_eq_self.2 fun e he => by simp [hx e he]
      simp [Std.ReflCmp.compare_self, hall]
    · rename_i hgt
      simp only [List.filter_cons, hgt]
      exact ((ih hrest).cons _).trans (.swap _ _ _)

/-- A table with a value at `k` is that entry and the rest. -/
theorem perm_of_find? [DecidableEq κ] {t : Table κ ν} {k : κ} {v : ν} (h : t.find? k = some v) :
    t.entries.Perm ((k, v) :: (t.erase k).entries) := by
  have same : t.insert k v = t := ext_find? fun q => by
    rw [find?_insert]
    split
    · rename_i e
      rw [e, h]
    · rfl
  have := t.insert_perm k v
  rwa [same] at this

end Entries

end Table

end Muster
