import Muster.Instant

/-!
# Days and dates

The date of a day number has that day number, and it is a date of the calendar. A year begins 365 or
366 days after the year before, so the average length of a year gives the year of a day up to one;
within a year the months share out the days.

**Main statements.** `dayNumber_dateOf` and `valid_dateOf`.
-/

namespace Muster.Calendar

/-! ## Years -/

/-- The number of days of a year. -/
def yearLength (leap : Bool) : Nat := if leap then 366 else 365

theorem firstDay_succ (y : Int) : firstDay (y + 1) = firstDay y + yearLength (isLeap y) := by
  have leap : isLeap y = true ↔ y % 4 = 0 ∧ (y % 100 ≠ 0 ∨ y % 400 = 0) := by
    simp [isLeap]
  simp only [firstDay, yearLength]
  split
  · rename_i h
    have := leap.1 h
    omega
  · rename_i h
    have := mt leap.2 h
    omega

/-- A day belongs to the year that has begun last. -/
theorem yearOf_spec (day : Int) : firstDay (yearOf day) ≤ day ∧ day < firstDay (yearOf day + 1) := by
  simp only [yearOf]
  have low : firstDay (day * 400 / 146097 - 1) ≤ day := by
    simp only [firstDay]
    omega
  have high : day < firstDay (day * 400 / 146097 + 2) := by
    simp only [firstDay]
    omega
  split
  · rename_i early
    exact ⟨low, by rwa [Int.sub_add_cancel]⟩
  · rename_i begun
    split
    · rename_i late
      exact ⟨late, by rwa [Int.add_assoc]⟩
    · omega

/-! ## Months -/

/-- Days that are shared out over months: so many whole months have passed, and so many days. -/
theorem monthAndDay_spec (month offset : Nat) (lengths : List Nat)
    (within : offset < lengths.foldr (· + ·) 0) :
    ∃ passed length, lengths[passed]? = some length ∧
      (monthAndDay month offset lengths).1 = month + passed ∧
      1 ≤ (monthAndDay month offset lengths).2 ∧
      (monthAndDay month offset lengths).2 ≤ length ∧
      (lengths.take passed).foldr (· + ·) 0 + (monthAndDay month offset lengths).2 = offset + 1 := by
  induction lengths generalizing month offset with
  | nil => cases within
  | cons length rest ih =>
    simp only [monthAndDay]
    by_cases here : offset < length
    · rw [if_pos here]
      exact ⟨0, length, rfl, rfl, Nat.le_add_left _ _, here, Nat.zero_add _⟩
    · rw [if_neg here]
      rw [List.foldr_cons] at within
      obtain ⟨passed, last, found, months, low, high, days⟩ :=
        ih (month + 1) (offset - length) (by omega)
      refine ⟨passed + 1, last, found, by omega, low, high, ?_⟩
      rw [List.take_succ_cons, List.foldr_cons]
      omega

theorem sum_monthLengths (leap : Bool) : (monthLengths leap).foldr (· + ·) 0 = yearLength leap := by
  cases leap <;> rfl

theorem mem_monthLengths_le {leap : Bool} {passed length : Nat}
    (found : (monthLengths leap)[passed]? = some length) : passed < 12 ∧ length ≤ 31 := by
  have inside : passed < (monthLengths leap).length := (List.getElem?_eq_some_iff.1 found).1
  have all : ∀ n ∈ monthLengths leap, n ≤ 31 := by cases leap <;> decide
  exact ⟨inside, all length (List.mem_of_getElem? found)⟩

/-- The days of so many first months of a year. -/
def daysBefore (leap : Bool) (passed : Nat) : Nat :=
  ((monthLengths leap).take passed).foldr (· + ·) 0

/-! ## Dates -/

/-- The parts of the date of a day. -/
theorem dateOf_spec (day : Int) : (dateOf day).year = yearOf day ∧
    ∃ passed length, (monthLengths (isLeap (yearOf day)))[passed]? = some length ∧
      (dateOf day).month = passed + 1 ∧ 1 ≤ (dateOf day).day ∧ (dateOf day).day ≤ length ∧
      firstDay (yearOf day) + daysBefore (isLeap (yearOf day)) passed +
        ((dateOf day).day - 1 : Int) = day := by
  obtain ⟨begun, ends⟩ := yearOf_spec day
  rw [firstDay_succ] at ends
  have within : (day - firstDay (yearOf day)).toNat <
      (monthLengths (isLeap (yearOf day))).foldr (· + ·) 0 := by
    rw [sum_monthLengths]
    omega
  obtain ⟨passed, length, found, months, low, high, days⟩ := monthAndDay_spec 1 _ _ within
  refine ⟨rfl, passed, length, found, months.trans (Nat.add_comm _ _), low, high, ?_⟩
  have dayOfMonth : (dateOf day).day = (monthAndDay 1 (day - firstDay (yearOf day)).toNat
    (monthLengths (isLeap (yearOf day)))).2 := rfl
  rw [← dayOfMonth] at days
  unfold daysBefore
  omega

/-- The day number of the date of a day is the day. -/
theorem dayNumber_dateOf (day : Int) : (dateOf day).dayNumber = day := by
  obtain ⟨year, passed, length, -, month, -, -, days⟩ := dateOf_spec day
  rw [Date.dayNumber, year, month, Nat.add_sub_cancel]
  exact days

/-- The date of a day is in the calendar. -/
theorem valid_dateOf (day : Int) : (dateOf day).valid = true := by
  obtain ⟨year, passed, length, found, month, low, high, -⟩ := dateOf_spec day
  simp [Date.valid, year, month, found, low, high]

/-- Months have two digits, and so have days. -/
theorem dateOf_bounds (day : Int) : 1 ≤ (dateOf day).month ∧ (dateOf day).month ≤ 12 ∧
    1 ≤ (dateOf day).day ∧ (dateOf day).day ≤ 31 := by
  obtain ⟨-, passed, length, found, month, low, high, -⟩ := dateOf_spec day
  obtain ⟨twelve, longest⟩ := mem_monthLengths_le found
  omega

end Muster.Calendar
