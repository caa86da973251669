/-!
# Counts

Demand, capacity and limits are 32-bit counts. Two sums are used. `Count.satAdd` stops at the
largest count; `Count.total` adds words, and is the true sum as long as that fits.

**Main statements.** `toNat_satAdd`, `toNat_satSub` and `toNat_satSum` give the saturating
operations as truncated arithmetic on natural numbers; `toNat_total` says what `total` is.
-/

namespace Muster

/-- A number of units or of work items. -/
abbrev Count := UInt32

namespace Count

/-- The largest count. -/
def largest : Count := 4294967295

/-- Addition that stops at `largest`. -/
def satAdd (a b : Count) : Count :=
  if a.toNat + b.toNat < UInt32.size then a + b else largest

/-- Subtraction that stops at zero. -/
def satSub (a b : Count) : Count := if b ≤ a then a - b else 0

/-- The sum of a list, stopping at `largest`. -/
def satSum (l : List Count) : Count := l.foldl satAdd 0

/-- The sum of a list of words. -/
def total (l : List Count) : Count := l.foldl (· + ·) 0

/-- The sum of a list as a natural number. -/
def exactSum : List Count → Nat
  | [] => 0
  | c :: l => c.toNat + exactSum l

/-- A length as a count, `largest` if it does not fit. -/
def ofLength (n : Nat) : Count := if n < UInt32.size then UInt32.ofNat n else largest

/-! ## As natural numbers -/

theorem toNat_lt (a : Count) : a.toNat < 4294967296 := UInt32.toNat_lt_size a

theorem toNat_satAdd (a b : Count) : (a.satAdd b).toNat = min (a.toNat + b.toNat) 4294967295 := by
  have := toNat_lt a
  have := toNat_lt b
  simp only [satAdd, UInt32.size]
  split
  · rw [UInt32.toNat_add]
    omega
  · have : largest.toNat = 4294967295 := rfl
    omega

theorem toNat_satSub (a b : Count) : (a.satSub b).toNat = a.toNat - b.toNat := by
  simp only [satSub]
  split
  · rename_i h
    exact UInt32.toNat_sub_of_le _ _ h
  · rename_i h
    rw [UInt32.le_iff_toNat_le] at h
    have : (0 : Count).toNat = 0 := rfl
    omega

theorem toNat_min (a b : Count) : (min a b).toNat = min a.toNat b.toNat := by
  have split : min a b = if a ≤ b then a else b := rfl
  rw [split]
  split <;> rename_i le <;> rw [UInt32.le_iff_toNat_le] at le <;> omega

theorem toNat_ofLength (n : Nat) : (ofLength n).toNat = min n 4294967295 := by
  simp only [ofLength, UInt32.size]
  split
  · rw [UInt32.toNat_ofNat']
    omega
  · have : largest.toNat = 4294967295 := rfl
    omega

theorem toNat_foldl_satAdd (l : List Count) (a : Count) :
    (l.foldl satAdd a).toNat = min (a.toNat + exactSum l) 4294967295 := by
  induction l generalizing a with
  | nil =>
    have := toNat_lt a
    simp only [List.foldl_nil, exactSum]
    omega
  | cons b l ih =>
    rw [List.foldl_cons, ih, toNat_satAdd, exactSum]
    omega

theorem toNat_satSum (l : List Count) :
    (satSum l).toNat = min (exactSum l) 4294967295 := by
  have := toNat_foldl_satAdd l 0
  have h0 : (0 : Count).toNat = 0 := rfl
  rw [h0, Nat.zero_add] at this
  exact this

theorem toNat_foldl_add (l : List Count) (a : Count) :
    (l.foldl (· + ·) a).toNat = (a.toNat + exactSum l) % 4294967296 := by
  induction l generalizing a with
  | nil =>
    have := toNat_lt a
    simp only [List.foldl_nil, exactSum]
    omega
  | cons b l ih =>
    rw [List.foldl_cons, ih, UInt32.toNat_add, exactSum]
    omega

theorem toNat_total (l : List Count) :
    (total l).toNat = exactSum l % 4294967296 := by
  have := toNat_foldl_add l 0
  have h0 : (0 : Count).toNat = 0 := rfl
  rw [h0, Nat.zero_add] at this
  exact this

end Count

end Muster
