import Muster.Table

/-!
# Pending marks

A set of keys for which something has been asked and has not begun. Marking a key that is already
marked changes nothing and says so, which is how repeated requests become one.
-/

namespace Muster

universe u

/-- The marked keys. -/
structure PendingSet (κ : Type u) [Ord κ] where
  marks : Table κ Unit := ∅

namespace PendingSet

variable {κ : Type u} [Ord κ] [Std.LawfulEqOrd κ]

/-- No key is marked. -/
def empty : PendingSet κ := {}

/-- Whether a key is marked. -/
def contains (s : PendingSet κ) (key : κ) : Bool := s.marks.contains key

/-- Marks a key. -/
def mark [Std.TransOrd κ] (s : PendingSet κ) (key : κ) : PendingSet κ := ⟨s.marks.insert key ()⟩

/-- Removes the mark of a key. -/
def clear (s : PendingSet κ) (key : κ) : PendingSet κ := ⟨s.marks.erase key⟩

/-- The number of marked keys. -/
def size (s : PendingSet κ) : Nat := s.marks.size

variable [DecidableEq κ]

@[simp] theorem contains_mark [Std.TransOrd κ] (s : PendingSet κ) (k q : κ) :
    (s.mark k).contains q = (decide (q = k) || s.contains q) := by
  simp only [contains, mark, Table.contains, Table.find?_insert]
  by_cases h : q = k <;> simp [h]

@[simp] theorem contains_clear (s : PendingSet κ) (k q : κ) :
    (s.clear k).contains q = (!decide (q = k) && s.contains q) := by
  simp only [contains, clear, Table.contains, Table.find?_erase]
  by_cases h : q = k <;> simp [h]

end PendingSet

end Muster
