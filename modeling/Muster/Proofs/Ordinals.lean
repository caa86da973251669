import Mathlib.Data.List.Induction
import Muster.Review.Chain

/-!
# The order of a chain

A strategy that is registered goes behind those whose ordinals are not greater, so the chain is the
stable sort of the strategies in the order of registration. There is just one list in which ordinals
ascend and strategies of one ordinal keep their order (`Chain.Arranges.unique`), so it makes no
difference whether a strategy is put in its place or the whole chain is sorted again each time.

**Main statement.** `Chain.sorts_ofList`.
-/

namespace Muster

variable {L : Type}

/-! ## Ways to arrange strategies -/

/-- The one strategy may stand before the other. -/
def Strategy.precedes (x y : Strategy L) : Bool := x.ordinal ≤ y.ordinal

theorem Strategy.precedes_iff {x y : Strategy L} :
    x.precedes y = true ↔ x.ordinal ≤ y.ordinal := decide_eq_true_iff

namespace Chain

/-- Ordinals ascend in the chain, and strategies of one ordinal have kept their order. -/
structure Arranges (c : Chain L) (strategies : List (Strategy L)) : Prop where
  ascending : c.Pairwise (·.ordinal ≤ ·.ordinal)
  stable : ∀ o, c.filter (·.ordinal = o) = strategies.filter (·.ordinal = o)

variable {c c' : Chain L} {strategies : List (Strategy L)} {x : Strategy L}

theorem filter_cons_ordinal (x : Strategy L) (l : List (Strategy L)) (o : Int) :
    (x :: l).filter (·.ordinal = o) =
      if x.ordinal = o then x :: l.filter (·.ordinal = o) else l.filter (·.ordinal = o) := by
  rw [List.filter_cons]
  simp only [decide_eq_true_eq]

theorem mem_of_stable {l l' : List (Strategy L)}
    (h : ∀ o, l.filter (·.ordinal = o) = l'.filter (·.ordinal = o)) (mem : x ∈ l) : x ∈ l' := by
  have kept : x ∈ l.filter (·.ordinal = x.ordinal) := List.mem_filter.2 ⟨mem, decide_eq_true rfl⟩
  rw [h] at kept
  exact (List.mem_filter.1 kept).1

/-- The first strategy has the least ordinal. -/
theorem head_le {y : Strategy L} (ascending : (x :: c).Pairwise (·.ordinal ≤ ·.ordinal))
    (mem : y ∈ x :: c) : x.ordinal ≤ y.ordinal := by
  rcases List.mem_cons.1 mem with rfl | mem
  · exact Int.le_refl _
  · exact List.rel_of_pairwise_cons ascending mem

namespace Arranges

theorem mem_iff (h : c.Arranges strategies) : x ∈ c ↔ x ∈ strategies :=
  ⟨mem_of_stable h.stable, mem_of_stable fun o => (h.stable o).symm⟩

theorem tail (h : Arranges (x :: c) (x :: strategies)) : c.Arranges strategies where
  ascending := h.ascending.of_cons
  stable o := by
    have here := h.stable o
    rw [filter_cons_ordinal, filter_cons_ordinal] at here
    split at here
    · exact (List.cons.inj here).2
    · exact here

/-- There is one way to arrange strategies. -/
theorem unique (h : c.Arranges strategies) (h' : c'.Arranges strategies) : c = c' := by
  have same : ∀ o, c.filter (·.ordinal = o) = c'.filter (·.ordinal = o) := fun o =>
    (h.stable o).trans (h'.stable o).symm
  have ascending := h.ascending
  have ascending' := h'.ascending
  clear h h'
  induction c generalizing c' with
  | nil =>
    refine (List.eq_nil_iff_forall_not_mem.2 fun x mem => ?_).symm
    exact List.not_mem_nil (mem_of_stable (fun o => (same o).symm) mem)
  | cons x c ih =>
    cases c' with
    | nil => exact absurd (mem_of_stable same List.mem_cons_self) List.not_mem_nil
    | cons y c' =>
      -- Both heads have the least ordinal, and so the first strategy of that ordinal is both.
      have le : x.ordinal ≤ y.ordinal :=
        head_le ascending (mem_of_stable (fun o => (same o).symm) List.mem_cons_self)
      have ge : y.ordinal ≤ x.ordinal := head_le ascending' (mem_of_stable same List.mem_cons_self)
      have first := same x.ordinal
      rw [filter_cons_ordinal, filter_cons_ordinal, if_pos rfl,
        if_pos (Int.le_antisymm ge le)] at first
      obtain ⟨rfl, -⟩ := List.cons.inj first
      have arranged : Arranges (x :: c) (x :: c') := ⟨ascending, same⟩
      rw [ih arranged.tail.stable ascending.of_cons ascending'.of_cons]

/-- To arrange a chain and one more strategy is to arrange all that was registered. -/
theorem more (h : c.Arranges strategies) (h' : c'.Arranges (c ++ [x])) :
    c'.Arranges (strategies ++ [x]) where
  ascending := h'.ascending
  stable o := by
    rw [h'.stable, List.filter_append, List.filter_append, h.stable]

end Arranges

/-! ## Registration -/

theorem mem_register {y : Strategy L} : y ∈ c.register x ↔ y = x ∨ y ∈ c := by
  induction c with
  | nil => simp [register]
  | cons head rest ih =>
    simp only [register]
    split
    · rw [List.mem_cons, ih, List.mem_cons]
      exact or_left_comm
    · exact List.mem_cons

/-- A strategy finds its place in a chain that is in order. -/
theorem arranges_register (ascending : c.Pairwise (·.ordinal ≤ ·.ordinal)) :
    (c.register x).Arranges (c ++ [x]) := by
  induction c with
  | nil => exact ⟨List.pairwise_singleton _ _, fun _ => rfl⟩
  | cons head rest ih =>
    obtain ⟨least, ascending'⟩ := List.pairwise_cons.1 ascending
    simp only [register]
    split
    · rename_i later
      have arranged := ih ascending'
      refine ⟨List.pairwise_cons.2 ⟨fun y mem => ?_, arranged.ascending⟩, fun o => ?_⟩
      · rcases mem_register.1 mem with rfl | mem
        · exact later
        · exact least y mem
      · rw [List.cons_append, filter_cons_ordinal, filter_cons_ordinal, arranged.stable]
    · rename_i earlier
      have before : ∀ y ∈ head :: rest, x.ordinal < y.ordinal := fun y mem =>
        Int.lt_of_lt_of_le (Int.not_le.1 earlier) (head_le ascending mem)
      refine ⟨List.pairwise_cons.2 ⟨fun y mem => Int.le_of_lt (before y mem), ascending⟩,
        fun o => ?_⟩
      rw [List.filter_append, filter_cons_ordinal x (head :: rest), filter_cons_ordinal x []]
      split
      · -- No other strategy has this ordinal.
        have none : (head :: rest).filter (·.ordinal = o) = [] := by
          refine List.filter_eq_nil_iff.2 fun y mem => ?_
          have after := before y mem
          rw [decide_eq_true_eq]
          omega
        rw [none]
        rfl
      · exact (List.append_nil _).symm

theorem ofList_concat (strategies : List (Strategy L)) (x : Strategy L) :
    ofList (strategies ++ [x]) = (ofList strategies).register x := List.foldl_append

theorem arranges_ofList (strategies : List (Strategy L)) :
    (ofList strategies).Arranges strategies := by
  induction strategies using List.reverseRecOn with
  | nil => exact ⟨.nil, fun _ => rfl⟩
  | append_singleton strategies x ih =>
    rw [ofList_concat]
    exact ih.more (arranges_register ih.ascending)

/-! ## Sorting -/

/-- Sorting arranges strategies. -/
theorem arranges_mergeSort (strategies : List (Strategy L)) :
    Arranges (strategies.mergeSort Strategy.precedes) strategies := by
  have trans : ∀ x y z : Strategy L,
      x.precedes y = true → y.precedes z = true → x.precedes z = true := by
    intro x y z hxy hyz
    rw [Strategy.precedes_iff] at *
    exact Int.le_trans hxy hyz
  have total : ∀ x y : Strategy L, (x.precedes y || y.precedes x) = true := by
    intro x y
    rw [Bool.or_eq_true_iff, Strategy.precedes_iff, Strategy.precedes_iff]
    exact Int.le_total x.ordinal y.ordinal
  refine ⟨(List.pairwise_mergeSort trans total strategies).imp Strategy.precedes_iff.1,
    fun o => ?_⟩
  -- The strategies of one ordinal are in order, so they keep their order in the sorted list.
  have level : (strategies.filter (·.ordinal = o)).Pairwise (·.precedes · = true) := by
    refine List.pairwise_of_forall_mem_list fun x mem y mem' => ?_
    have hx := of_decide_eq_true (List.mem_filter.1 mem).2
    have hy := of_decide_eq_true (List.mem_filter.1 mem').2
    exact Strategy.precedes_iff.2 (Int.le_of_eq (hx.trans hy.symm))
  have kept := (List.sublist_mergeSort trans total level List.filter_sublist).filter
    fun x => decide (x.ordinal = o)
  rw [List.filter_filter] at kept
  simp only [Bool.and_self] at kept
  refine (kept.eq_of_length ?_).symm
  exact ((List.mergeSort_perm strategies Strategy.precedes).filter _).length_eq.symm

/-- The chain is the stable sort of the strategies, and sorting again after each registration comes
to the same. -/
structure Sorts (c : Chain L) (strategies : List (Strategy L)) : Prop
    extends c.Arranges strategies where
  perm : c.Perm strategies
  sort : c = strategies.mergeSort Strategy.precedes
  again : c = strategies.foldl (fun c x => (c ++ [x]).mergeSort Strategy.precedes) []

theorem sorts_ofList (strategies : List (Strategy L)) : (ofList strategies).Sorts strategies := by
  have sort : ofList strategies = strategies.mergeSort Strategy.precedes :=
    (arranges_ofList strategies).unique (arranges_mergeSort strategies)
  refine ⟨arranges_ofList strategies, ?_, sort, ?_⟩
  · rw [sort]
    exact List.mergeSort_perm ..
  · clear sort
    induction strategies using List.reverseRecOn with
    | nil => rfl
    | append_singleton strategies x ih =>
      rw [List.foldl_append, ← ih]
      exact (arranges_ofList _).unique ((arranges_ofList strategies).more (arranges_mergeSort _))

end Chain

end Muster
