import Mathlib.Algebra.Ring.Nat
import Muster.Id.Text
import Muster.Text.Decimal
import Muster.Text.Split

/-!
# Numerals read back

The digits of a number give the number back, in base 32 and in decimal, and so does the text of an
identifier. Readers go digit by digit, whatever the base is, so both are cases of one positional
notation.

**Main statements.** `Id.ofChars_toChars` for identifiers, `Decimal.decode_fixed` and
`Decimal.encode_inj` for decimal numbers.
-/

namespace Muster

/-! ## Positional notation -/

namespace Positional

/-- The lowest `width` digits of `n`. -/
def write (base : Nat) (digit : Nat → Char) : (width : Nat) → (n : Nat) → List Char
  | 0, _ => []
  | width + 1, n => write base digit width (n / base) ++ [digit (n % base)]

/-- The number that follows `acc` when the digits of `cs` are appended to it. -/
def readFrom (base : Nat) (value? : Char → Option Nat) (acc : Nat) : List Char → Option Nat
  | [] => some acc
  | c :: cs => (value? c).bind fun d => readFrom base value? (acc * base + d) cs

variable {base : Nat} {digit : Nat → Char} {value? : Char → Option Nat}

theorem readFrom_append (acc : Nat) (cs ds : List Char) :
    readFrom base value? acc (cs ++ ds) =
      (readFrom base value? acc cs).bind fun acc => readFrom base value? acc ds := by
  induction cs generalizing acc with
  | nil => rfl
  | cons c cs ih =>
    simp only [List.cons_append, readFrom, Option.bind_assoc]
    exact congrArg _ (funext fun d => ih _)

/-- Digits that have their values bring back what fits between them. -/
theorem readFrom_write (positive : 0 < base) (read : ∀ n < base, value? (digit n) = some n)
    (acc width n : Nat) : readFrom base value? acc (write base digit width n) =
      some (acc * base ^ width + n % base ^ width) := by
  induction width generalizing n with
  | zero => simp [write, readFrom, Nat.mod_one]
  | succ width ih =>
    have split : n % base ^ (width + 1) = n / base % base ^ width * base + n % base := by
      rw [Nat.pow_succ', Nat.mod_mul, Nat.mul_comm, Nat.add_comm]
    simp only [write, readFrom_append, ih, Option.bind_some, readFrom,
      read _ (Nat.mod_lt n positive), split]
    rw [Nat.add_mul, Nat.mul_assoc, ← Nat.pow_succ, Nat.add_assoc]

theorem length_write (width n : Nat) : (write base digit width n).length = width := by
  induction width generalizing n with
  | zero => rfl
  | succ width ih => rw [write, List.length_append, ih, List.length_singleton]

/-- What holds of each digit holds of those that are written. -/
theorem forall_mem_write {P : Char → Prop} (positive : 0 < base) (each : ∀ n < base, P (digit n))
    (width n : Nat) : ∀ c ∈ write base digit width n, P c := by
  induction width generalizing n with
  | zero => exact fun _ mem => nomatch mem
  | succ width ih =>
    intro c mem
    rcases List.mem_append.1 mem with mem | mem
    · exact ih _ c mem
    · exact List.mem_singleton.1 mem ▸ each _ (Nat.mod_lt n positive)

end Positional

open Positional

/-! ## Base 32 -/

namespace Base32

theorem encode_eq (width n : Nat) : encode width n = write 32 digit width n := by
  induction width generalizing n with
  | zero => rfl
  | succ width ih => rw [encode, write, ih]

theorem decodeFrom_eq (acc : Nat) (cs : List Char) :
    decodeFrom acc cs = readFrom 32 value? acc cs := by
  induction cs generalizing acc with
  | nil => rfl
  | cons c cs ih => exact congrArg _ (funext fun d => ih _)

/-- Each digit has its value and takes one byte. -/
theorem digit_good : ∀ n < 32, value? (digit n) = some n ∧ (digit n).utf8Size = 1 := by decide

/-- A number comes back that has no more than `width` digits. -/
theorem decode_encode {width n : Nat} (fits : n < 32 ^ width) :
    decode (encode width n) = some n := by
  rw [decode, decodeFrom_eq, encode_eq,
    readFrom_write (by decide) fun n small => (digit_good n small).1, Nat.zero_mul, Nat.zero_add,
    Nat.mod_eq_of_lt fits]

theorem utf8ByteSize_of_ascii {cs : List Char} (ascii : ∀ c ∈ cs, c.utf8Size = 1) :
    (String.ofList cs).utf8ByteSize = cs.length := by
  induction cs with
  | nil => rfl
  | cons c cs ih =>
    have first : (String.ofList [c]).utf8ByteSize = c.utf8Size := String.utf8ByteSize_singleton
    rw [← List.singleton_append, String.ofList_append, String.utf8ByteSize_append, first,
      ascii c List.mem_cons_self, ih fun c mem => ascii c (List.mem_cons_of_mem _ mem),
      List.length_append, List.length_singleton]

theorem utf8ByteSize_encode (width n : Nat) :
    (String.ofList (encode width n)).utf8ByteSize = width := by
  rw [encode_eq, utf8ByteSize_of_ascii, length_write]
  exact forall_mem_write (by decide) (fun n small => (digit_good n small).2) width n

end Base32

/-! ## Identifiers -/

theorem Ulid.ofChars_toChars (u : Ulid) : Ulid.ofChars u.toChars = .ok u := by
  have fits : u.val < 32 ^ 26 := Nat.lt_trans u.val_lt (by decide)
  have same : ofNat u.val = u := ext_val (Nat.mod_eq_of_lt u.val_lt)
  simp [ofChars, toChars, Base32.utf8ByteSize_encode, Base32.decode_encode fits, same]

namespace Id

variable {k : IdKind}

/-- The first underscore of an identifier is the one after its tag. -/
theorem span_toChars (i : Id k) : i.toChars.takeWhile (· != '_') = k.tag.toList ∧
    i.toChars.dropWhile (· != '_') = '_' :: i.ulid.toChars := by
  have plain : ∀ c ∈ k.tag.toList, (c != '_') = true := by
    refine List.all_eq_true.1 ?_
    cases k <;> decide
  constructor
  · rw [toChars, List.takeWhile_append_of_pos plain]
    simp
  · rw [toChars, List.dropWhile_append_of_pos plain]
    simp

/-- The text of an identifier is read as the identifier. -/
theorem ofChars_toChars (i : Id k) : ofChars k i.toChars = .ok i := by
  obtain ⟨tag, digits⟩ := i.span_toChars
  have nonempty : i.toChars ≠ [] := by simp [toChars]
  simp [ofChars, nonempty, tag, digits, Ulid.ofChars_toChars]

theorem parse_toText (i : Id k) : parse k i.toText = .ok i := by
  rw [parse, toText, String.toList_ofList, ofChars_toChars]

end Id

/-! ## Decimal numbers -/

namespace Decimal

theorem fixed_eq (width n : Nat) : fixed width n = write 10 Nat.digitChar width n := by
  induction width generalizing n with
  | zero => rfl
  | succ width ih => rw [fixed, write, ih]

theorem decodeFrom_eq (acc : Nat) (cs : List Char) :
    decodeFrom acc cs = readFrom 10 value? acc cs := by
  induction cs generalizing acc with
  | nil => rfl
  | cons c cs ih => exact congrArg _ (funext fun d => ih _)

theorem range_of_isDigit {c : Char} (digit : c.isDigit = true) : 48 ≤ c.toNat ∧ c.toNat ≤ 57 := by
  simp only [Char.isDigit, Bool.and_eq_true, decide_eq_true_eq, UInt32.le_iff_toNat_le] at digit
  exact digit

/-- Each digit has its value. -/
theorem digit_good :
    ∀ n < 10, value? (Nat.digitChar n) = some n ∧ (Nat.digitChar n).isDigit = true := by decide

theorem length_fixed (width n : Nat) : (fixed width n).length = width := by
  rw [fixed_eq, length_write]

theorem isDigit_of_mem_fixed {width n : Nat} : ∀ c ∈ fixed width n, c.isDigit = true := by
  rw [fixed_eq]
  exact forall_mem_write (by decide) (fun n small => (digit_good n small).2) width n

/-- Where digits are written, they come first. -/
theorem fixed_eq_cons {width : Nat} (wide : width ≠ 0) (n : Nat) :
    ∃ c cs, fixed width n = c :: cs ∧ c.isDigit = true := by
  have length := length_fixed width n
  cases shape : fixed width n with
  | nil =>
    rw [shape] at length
    exact absurd length.symm wide
  | cons c cs => exact ⟨c, cs, rfl, isDigit_of_mem_fixed c (shape ▸ List.mem_cons_self)⟩

/-- A number comes back that has no more than `width` digits. -/
theorem decode_fixed {width n : Nat} (wide : width ≠ 0) (fits : n < 10 ^ width) :
    decode (fixed width n) = some n := by
  have digits : decodeFrom 0 (fixed width n) = some n := by
    rw [decodeFrom_eq, fixed_eq,
      readFrom_write (by decide) fun n small => (digit_good n small).1, Nat.zero_mul, Nat.zero_add,
      Nat.mod_eq_of_lt fits]
  obtain ⟨c, cs, shape, -⟩ := fixed_eq_cons wide n
  rw [shape] at digits ⊢
  exact digits

/-- There is no digit to go on with. -/
def Stops (rest : List Char) : Prop := ∀ c ∈ rest.head?, c.isDigit = false

theorem stops_nil : Stops [] := fun _ mem => nomatch mem

theorem Stops.take {rest : List Char} (h : Stops rest) (n : Nat) : Stops (rest.take n) := by
  cases n with
  | zero => exact stops_nil
  | succ n =>
    cases rest with
    | nil => exact h
    | cons c rest => exact h

/-- Digits end where no digit follows. -/
theorem takeWhile_digits {ds rest : List Char} (digits : ∀ c ∈ ds, c.isDigit = true)
    (stop : Stops rest) : (ds ++ rest).takeWhile Char.isDigit = ds := by
  have none : rest.takeWhile Char.isDigit = [] := by
    cases rest with
    | nil => rfl
    | cons c rest => simp [stop c rfl]
  rw [List.takeWhile_append_of_pos digits, none, List.append_nil]

theorem isDigit_of_mem_encode {n : Nat} : ∀ c ∈ encode n, c.isDigit = true :=
  fun _ mem => Nat.isDigit_of_mem_toDigits (by decide) (by decide) mem

theorem encode_eq_cons (n : Nat) : ∃ c cs, encode n = c :: cs ∧ c.isDigit = true := by
  cases shape : encode n with
  | nil => exact absurd shape Nat.toDigits_ne_nil
  | cons c cs => exact ⟨c, cs, rfl, isDigit_of_mem_encode c (shape ▸ List.mem_cons_self)⟩

theorem encode_inj {m n : Nat} (h : encode m = encode n) : m = n := by
  have read : ∀ n, Nat.ofDigitChars 10 (encode n) 0 = n :=
    fun _ => Nat.ofDigitChars_toDigits (by decide) (by decide)
  rw [← read m, h, read]

/-- A number and what follows it can be told apart. -/
theorem encode_append_inj {m n : Nat} {rest rest' : List Char} (stop : Stops rest)
    (stop' : Stops rest') (same : encode m ++ rest = encode n ++ rest') : m = n ∧ rest = rest' := by
  have digits := congrArg (List.takeWhile Char.isDigit) same
  rw [takeWhile_digits isDigit_of_mem_encode stop, takeWhile_digits isDigit_of_mem_encode stop']
    at digits
  rw [digits] at same
  exact ⟨encode_inj digits, List.append_cancel_left same⟩

end Decimal

/-! ## Blanks -/

namespace Blank

theorem isBlank_of_isDigit {c : Char} (digit : c.isDigit = true) : isBlank c = false := by
  have range := Decimal.range_of_isDigit digit
  simp only [isBlank, Bool.or_eq_false_iff, Bool.and_eq_false_iff, decide_eq_false_iff_not,
    beq_eq_false_iff_ne]
  omega

theorem trimLeft_cons {c : Char} (sharp : isBlank c = false) (cs : List Char) :
    trimLeft (c :: cs) = c :: cs := by
  simp [trimLeft, sharp]

end Blank

end Muster
