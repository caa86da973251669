import Muster.Instant.Text
import Muster.Proofs.Dates
import Muster.Proofs.Numerals

/-!
# Instants read back

The written form of an instant of the years 0 to 9999 is read as that instant, with all its
nanoseconds and also in a leap second. The readers take part after part off the text; each part has
as many digits as its reader may take, or is followed by something else than a digit.

**Main statement.** `Instant.ofChars?_toChars`.
-/

namespace Muster.Instant

open Calendar

/-- An instant of the years 0 to 9999. The nanoseconds pass a full second only in a leap second,
which comes after the last second of a minute. -/
structure Ordinary (t : Instant) : Prop where
  year : 0 ≤ yearOf (t.seconds / 86400 + epochDay) ∧ yearOf (t.seconds / 86400 + epochDay) ≤ 9999
  nanos : t.nanos < 1000000000 ∨ t.nanos < 2000000000 ∧ t.seconds % 60 = 59

/-! ## Digits -/

theorem digits?_append {most : Nat} {ds rest : List Char} (digits : ∀ c ∈ ds, c.isDigit = true)
    (le : ds.length ≤ most) (stop : ds.length = most ∨ Decimal.Stops rest) :
    digits? most (ds ++ rest) = (Decimal.decode ds).map (·, rest) := by
  have none : Decimal.Stops (rest.take (most - ds.length)) := by
    rcases stop with full | stop
    · rw [full, Nat.sub_self, List.take_zero]
      exact Decimal.stops_nil
    · exact stop.take _
  have taken : ((ds ++ rest).take most).takeWhile Char.isDigit = ds := by
    rw [List.take_append, List.take_of_length_le le, Decimal.takeWhile_digits digits none]
  simp only [digits?, taken, List.drop_left]

theorem digits?_fixed {most width n : Nat} {rest : List Char} (wide : width ≠ 0)
    (fits : n < 10 ^ width) (le : width ≤ most) (stop : width = most ∨ Decimal.Stops rest) :
    digits? most (Decimal.fixed width n ++ rest) = some (n, rest) := by
  have length := Decimal.length_fixed width n
  rw [digits?_append Decimal.isDigit_of_mem_fixed (by rwa [length]) (by rwa [length]),
    Decimal.decode_fixed wide fits, Option.map_some]

/-! ## Blanks -/

theorem trimLeft_fixed {width : Nat} (wide : width ≠ 0) (n : Nat) (rest : List Char) :
    Blank.trimLeft (Decimal.fixed width n ++ rest) = Decimal.fixed width n ++ rest := by
  obtain ⟨c, cs, shape, digit⟩ := Decimal.fixed_eq_cons wide n
  rw [shape]
  exact Blank.trimLeft_cons (Blank.isBlank_of_isDigit digit) _

/-! ## Parts -/

theorem field?_fixed {low high n : Nat} (within : low ≤ n ∧ n ≤ high) (two : n < 100)
    (rest : List Char) : field? low high (Decimal.fixed 2 n ++ rest) = some (n, rest) := by
  have read : digits? 2 (Decimal.fixed 2 n ++ rest) = some (n, rest) :=
    digits?_fixed (by decide) two (Nat.le_refl 2) (.inl rfl)
  simp [field?, trimLeft_fixed, read, within]

theorem mark?_cons {c : Char} (sharp : Blank.isBlank c = false) (rest : List Char) :
    mark? c (c :: rest) = some rest := by
  simp [mark?, Blank.trimLeft_cons sharp]

theorem year?_yearChars {y : Int} (four : 0 ≤ y ∧ y ≤ 9999) (rest : List Char) :
    year? (yearChars y ++ rest) = some (y, rest) := by
  have read : digits? 4 (Decimal.fixed 4 y.toNat ++ rest) = some (y.toNat, rest) :=
    digits?_fixed (by decide) (by omega) (Nat.le_refl 4) (.inl rfl)
  have year : ((y.toNat : Nat) : Int) = y := Int.toNat_of_nonneg four.1
  rw [yearChars, if_pos four, year?, trimLeft_fixed (by decide)]
  -- The year begins with a digit and not with a sign.
  obtain ⟨c, cs, shape, digit⟩ := Decimal.fixed_eq_cons (show 4 ≠ 0 by decide) y.toNat
  rw [shape] at read ⊢
  split
  · rename_i minus
    cases minus
    cases digit
  · rename_i plus
    cases plus
    cases digit
  · simp only [read, Option.map_some, year]

theorem shift_eq (places n : Nat) : Decimal.shift places n = n * 10 ^ places := by
  induction places generalizing n with
  | zero => rw [Decimal.shift, Nat.pow_zero, Nat.mul_one]
  | succ places ih => rw [Decimal.shift, ih, Nat.pow_succ', Nat.mul_assoc]

/-- A fraction of up to nine digits is read in nanoseconds. -/
theorem fraction?_fixed {width n : Nat} (wide : width ≠ 0) (le : width ≤ 9)
    (fits : n < 10 ^ width) :
    fraction? ('.' :: Decimal.fixed width n ++ ['Z']) = some (n * 10 ^ (9 - width), ['Z']) := by
  have stop : Decimal.Stops ['Z'] := by
    rintro c ⟨⟩
    rfl
  have read := digits?_fixed (n := n) wide fits le (.inr stop)
  have width' : (Decimal.fixed width n ++ ['Z']).length - ['Z'].length = width := by
    rw [List.length_append, Decimal.length_fixed, Nat.add_sub_cancel]
  simp only [fraction?, List.cons_append, read, Option.bind_eq_bind, Option.bind_some, width',
    shift_eq]
  rfl

theorem fraction?_fractionChars {n : Nat} (nano : n < 1000000000) :
    fraction? (fractionChars n ++ ['Z']) = some (n, ['Z']) := by
  unfold fractionChars
  split
  · rename_i zero
    rw [zero]
    rfl
  · split
    · rename_i milli
      have whole : n / 1000000 * 10 ^ (9 - 3) = n :=
        Nat.div_mul_cancel (Nat.dvd_of_mod_eq_zero milli)
      rw [fraction?_fixed (by decide) (by decide) (by omega), whole]
    · split
      · rename_i micro
        have whole : n / 1000 * 10 ^ (9 - 6) = n :=
          Nat.div_mul_cancel (Nat.dvd_of_mod_eq_zero micro)
        rw [fraction?_fixed (by decide) (by decide) (by omega), whole]
      · rw [fraction?_fixed (by decide) (by decide) nano, Nat.sub_self, Nat.pow_zero, Nat.mul_one]

/-! ## Instants -/

/-- One part of a text is read, and then the rest. -/
theorem reads_on {α β : Type} {x : Option α} {f : α → Option β} {a : α} {b : β} (read : x = some a)
    (rest : f a = some b) : x >>= f = some b := by
  rw [read]
  exact rest

/-- The text of a date, a time of day and a fraction is read as the instant that they name. A second
that is counted as the sixtieth is a leap second. -/
theorem ofChars?_parts {date : Date} {hour minute second nanos : Nat} {t : Instant}
    (four : 0 ≤ date.year ∧ date.year ≤ 9999) (month : 1 ≤ date.month ∧ date.month ≤ 12)
    (day : 1 ≤ date.day ∧ date.day ≤ 31) (valid : date.valid = true) (h : 0 ≤ hour ∧ hour ≤ 23)
    (m : 0 ≤ minute ∧ minute ≤ 59) (s : 0 ≤ second ∧ second ≤ 60) (n : nanos < 1000000000)
    (seconds : t.seconds = (date.dayNumber - epochDay) * 86400 +
      (hour * 3600 + minute * 60 + (if second = 60 then 59 else second : Nat)))
    (fraction : t.nanos = if second = 60 then nanos + 1000000000 else nanos)
    (inRange : yearInRange (yearOf (t.seconds / 86400 + epochDay)) = true) :
    ofChars? (yearChars date.year ++ '-' :: Decimal.fixed 2 date.month ++
      '-' :: Decimal.fixed 2 date.day ++ 'T' :: Decimal.fixed 2 hour ++
      ':' :: Decimal.fixed 2 minute ++ ':' :: Decimal.fixed 2 second ++ fractionChars nanos ++
      ['Z']) = some t := by
  have dash : ∀ rest, mark? '-' ('-' :: rest) = some rest := mark?_cons rfl
  have colon : ∀ rest, mark? ':' (':' :: rest) = some rest := mark?_cons rfl
  have zone : offset? (Blank.trimLeft ['Z']) = some (0, []) := rfl
  have years : yearInRange date.year = true := by
    simp only [yearInRange, Bool.and_eq_true, decide_eq_true_eq]
    omega
  obtain ⟨seconds', nanos'⟩ := t
  simp only at seconds fraction inRange
  subst seconds fraction
  simp only [List.append_assoc, List.cons_append]
  unfold ofChars?
  refine reads_on (year?_yearChars four _) (reads_on (dash _) ?_)
  refine reads_on (field?_fixed month (by omega) _) (reads_on (dash _) ?_)
  refine reads_on (field?_fixed day (by omega) _) (reads_on rfl ?_)
  refine reads_on (field?_fixed h (by omega) _) (reads_on (colon _) ?_)
  refine reads_on (field?_fixed m (by omega) _) (reads_on (colon _) ?_)
  refine reads_on (field?_fixed s (by omega) _) (reads_on (fraction?_fractionChars n) ?_)
  refine reads_on zone ?_
  -- All is read; what is left are the checks of the date and of the year.
  refine reads_on (if_pos rfl) (reads_on (if_pos ?_) (reads_on (if_pos ?_) ?_))
  · rw [years, valid]
    rfl
  · rw [Int.sub_zero]
    exact inRange
  · rw [Int.sub_zero]

/-- An instant is read from its text. -/
theorem ofChars?_toChars {t : Instant} (ordinary : t.Ordinary) : ofChars? t.toChars = some t := by
  obtain ⟨monthLow, monthHigh, dayLow, dayHigh⟩ := dateOf_bounds (t.seconds / 86400 + epochDay)
  have year : (dateOf (t.seconds / 86400 + epochDay)).year = _ := (dateOf_spec _).1
  have time : ((t.seconds % 86400).toNat : Int) = t.seconds % 86400 :=
    Int.toNat_of_nonneg (Int.emod_nonneg _ (by decide))
  have nanos := ordinary.nanos
  unfold toChars
  refine ofChars?_parts (by rw [year]; exact ordinary.year) ⟨monthLow, monthHigh⟩
    ⟨dayLow, dayHigh⟩ (valid_dateOf _) (by omega) (by omega) (by omega) (by omega) ?_ ?_ ?_
  · rw [dayNumber_dateOf]
    split <;> omega
  · split <;> omega
  · have years := ordinary.year
    simp only [yearInRange, Bool.and_eq_true, decide_eq_true_eq]
    omega

theorem parse?_toText {t : Instant} (ordinary : t.Ordinary) : parse? t.toText = some t := by
  rw [parse?, toText, String.toList_ofList, ofChars?_toChars ordinary]

end Muster.Instant
