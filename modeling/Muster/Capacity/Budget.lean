import Muster.Count
import Muster.Table

/-!
# Budgets

A budget holds what is left of each limit during one review. The first look-up of a key reads the
limit; after that the key is only counted down, so the limit is read once.

**Main statement.** `find?_consume_lookUp`: what a look-up and then a count-down leave.
-/

namespace Muster

universe u

/-- Remaining units per key, for the keys looked up so far. -/
structure Budget (κ : Type u) [Ord κ] where
  remaining : Table κ Count := ∅

namespace Budget

variable {κ : Type u} [Ord κ] [Std.TransOrd κ] [Std.LawfulEqOrd κ]

/-- Nothing has been looked up. -/
def empty : Budget κ := {}

/-- What is left for `key`; `limit` is what a first look-up reads. -/
def lookUp (b : Budget κ) (key : κ) (limit : Count) : Count × Budget κ :=
  match b.remaining.find? key with
  | some left => (left, b)
  | none => (limit, ⟨b.remaining.insert key limit⟩)

/-- Whether a look-up of `key` has to read the limit. -/
def reads (b : Budget κ) (key : κ) : Bool := !b.remaining.contains key

/-- Counts `units` down; a key that was never looked up has nothing left. -/
def consume (b : Budget κ) (key : κ) (units : Count) : Count × Budget κ :=
  let left := (b.remaining.findD key 0).satSub units
  (left, ⟨b.remaining.insert key left⟩)

variable {b : Budget κ} {key : κ}

theorem lookUp_of_some {left : Count} (known : b.remaining.find? key = some left) (limit : Count) :
    b.lookUp key limit = (left, b) := by
  simp only [lookUp, known]

theorem lookUp_of_none (new : b.remaining.find? key = none) (limit : Count) :
    b.lookUp key limit = (limit, ⟨b.remaining.insert key limit⟩) := by
  simp only [lookUp, new]

omit [Std.TransOrd κ] [Std.LawfulEqOrd κ] in
theorem reads_iff : b.reads key = true ↔ b.remaining.find? key = none := by
  simp [reads, Table.contains]

/-- What a key has left after units were taken off, the others being as they were. -/
theorem find?_consume_lookUp [DecidableEq κ] (b : Budget κ) (key : κ) (limit units : Count)
    (q : κ) : ((b.lookUp key limit).2.consume key units).2.remaining.find? q =
      if q = key then some ((b.lookUp key limit).1.satSub units) else b.remaining.find? q := by
  cases found : b.remaining.find? key with
  | none =>
    rw [lookUp_of_none found]
    by_cases e : q = key <;> simp [consume, Table.findD, e]
  | some left =>
    rw [lookUp_of_some found]
    by_cases e : q = key <;> simp [consume, Table.findD, e, found]

end Budget

end Muster
