import Mathlib.Data.List.Lex
import Muster.Proofs.Numerals

/-!
# Identifiers in order

Identifiers of one kind are ordered by their number. Two readings of the number give the same order.
As a text it has 26 digits, the most significant first, and a larger digit has a larger byte, though
the bytes of the digits have gaps between them; so texts compare byte by byte as the numbers do. As
a time with a random part behind it, it compares by the time first.

Both rest on one fact: of two numbers the one with the larger quotient is the larger, and if the
quotients agree, the one with the larger remainder.

**Main statement.** `Id.order_of_texts_and_times`.
-/

namespace Muster

/-! ## Quotients and remainders -/

namespace Positional

variable {base : Nat} {digit : Nat → Char} {n m : Nat}

/-- Numbers compare by what is in front of the last place, then by the last place. -/
theorem lt_iff_split (positive : 0 < base) (n m : Nat) :
    n < m ↔ n / base < m / base ∨ n / base = m / base ∧ n % base < m % base := by
  have parts := Nat.div_add_mod n base
  have parts' := Nat.div_add_mod m base
  have low := Nat.mod_lt n positive
  have low' := Nat.mod_lt m positive
  constructor
  · intro less
    have le := Nat.div_le_div_right (c := base) (Nat.le_of_lt less)
    rcases Nat.lt_or_eq_of_le le with high | same
    · exact .inl high
    · rw [same] at parts
      exact .inr ⟨same, by omega⟩
  · rintro (high | ⟨same, less⟩)
    · exact Nat.lt_of_not_le fun le => Nat.not_lt.2 (Nat.div_le_div_right le) high
    · rw [same] at parts
      omega

/-- Lists of one length compare by what is in front of the last entry, then by the last entry. -/
theorem concat_lt_concat_iff {α : Type} [LT α] {as bs : List α} (even : as.length = bs.length)
    (a b : α) : as ++ [a] < bs ++ [b] ↔ as < bs ∨ as = bs ∧ a < b := by
  induction as generalizing bs with
  | nil =>
    cases List.length_eq_zero_iff.1 even.symm
    simp [List.cons_lt_cons_iff]
  | cons c as ih =>
    cases bs with
    | nil => cases even
    | cons d bs =>
      rw [List.cons_append, List.cons_append, List.cons_lt_cons_iff, List.cons_lt_cons_iff,
        ih (Nat.succ.inj even), List.cons.injEq]
      tauto

/-- A common beginning does not matter. -/
theorem append_lt_append_iff {α : Type} [LT α] [Std.Irrefl (α := α) (· < ·)]
    (front as bs : List α) :
    front ++ as < front ++ bs ↔ as < bs := by
  induction front with
  | nil => rfl
  | cons c front ih =>
    rw [List.cons_append, List.cons_append, List.cons_lt_cons_iff, ih]
    exact ⟨fun h => h.elim (fun less => absurd less (Std.Irrefl.irrefl c)) (·.2),
      fun h => .inr ⟨rfl, h⟩⟩

/-- Numbers in as many places compare as what is written for their digits. -/
theorem write_lt_write_iff {α : Type} [LT α] [Std.Irrefl (α := α) (· < ·)] {sign : Char → α}
    (positive : 0 < base)
    (rises : ∀ i < base, ∀ j < base, sign (digit i) < sign (digit j) ↔ i < j) {width : Nat}
    (fits : n < base ^ width) (fits' : m < base ^ width) :
    (write base digit width n).map sign < (write base digit width m).map sign ↔ n < m := by
  induction width generalizing n m with
  | zero =>
    rw [Nat.pow_zero, Nat.lt_one_iff] at fits fits'
    subst fits fits'
    exact iff_of_false (List.lt_irrefl []) (Nat.lt_irrefl 0)
  | succ width ih =>
    rw [Nat.pow_succ'] at fits fits'
    have high := Nat.div_lt_of_lt_mul fits
    have high' := Nat.div_lt_of_lt_mul fits'
    have same : (write base digit width (n / base)).map sign =
        (write base digit width (m / base)).map sign ↔ n / base = m / base := by
      refine ⟨fun same => ?_, fun same => by rw [same]⟩
      have irrefl := List.lt_irrefl ((write base digit width (m / base)).map sign)
      rcases Nat.lt_trichotomy (n / base) (m / base) with less | equal | more
      · exact absurd (same ▸ (ih high high').2 less) irrefl
      · exact equal
      · exact absurd (same ▸ (ih high' high).2 more) irrefl
    rw [write, write, List.map_append, List.map_append, List.map_singleton, List.map_singleton,
      concat_lt_concat_iff (by simp only [List.length_map, length_write]), ih high high', same,
      rises _ (Nat.mod_lt n positive) _ (Nat.mod_lt m positive), ← lt_iff_split positive]

end Positional

open Positional

/-! ## Texts as bytes -/

/-- The bytes of a text in UTF-8. -/
def textBytes (text : String) : List UInt8 := text.toUTF8.data.toList

theorem textBytes_of_ascii {cs : List Char} (ascii : ∀ c ∈ cs, c.utf8Size = 1) :
    textBytes (String.ofList cs) = cs.map (·.val.toUInt8) := by
  have bytes : cs.flatMap String.utf8EncodeChar = cs.map (·.val.toUInt8) := by
    rw [List.map_eq_flatMap]
    exact List.flatMap_congr fun c mem => String.utf8EncodeChar_eq_singleton (ascii c mem)
  rw [textBytes, String.toUTF8, String.toByteArray_ofList, List.utf8Encode, bytes,
    List.data_toByteArray]

/-- A larger digit has a larger byte. -/
theorem Base32.digit_rises : ∀ i < 32, ∀ j < 32,
    (digit i).val.toUInt8 < (digit j).val.toUInt8 ↔ i < j := by decide

/-! ## Identifiers -/

namespace Ulid

/-- A number is its time and its random part. -/
theorem ofParts_parts (u : Ulid) : ofParts u.milliseconds u.random = u := by
  have small := u.val_lt
  have time : u.milliseconds < timeCount := Nat.div_lt_of_lt_mul small
  have rest : u.random < randomCount := Nat.mod_lt _ (by decide)
  have whole : u.milliseconds * randomCount + u.random = u.val := Nat.div_add_mod' _ _
  rw [ofParts, Nat.mod_eq_of_lt time, Nat.mod_eq_of_lt rest, whole]
  exact ext_val (Nat.mod_eq_of_lt small)

/-- The parts of a number made of two parts are these, cut to their fields. -/
theorem parts_ofParts (milliseconds random : Nat) :
    (ofParts milliseconds random).milliseconds = milliseconds % timeCount ∧
      (ofParts milliseconds random).random = random % randomCount := by
  have time : milliseconds % timeCount < timeCount := Nat.mod_lt _ (by decide)
  have rest : random % randomCount < randomCount := Nat.mod_lt _ (by decide)
  simp only [Ulid.milliseconds, Ulid.random, ofParts, ofNat, count, timeCount, randomCount] at *
  omega

end Ulid

namespace Id

variable {k : IdKind}

/-- The bytes of an identifier: those of the tag and the separator, then one for each digit. -/
theorem textBytes_toText (i : Id k) : textBytes i.toText =
    (k.tag.toList ++ ['_']).map (·.val.toUInt8) ++
      (write 32 Base32.digit 26 i.toNat).map (·.val.toUInt8) := by
  have front : ∀ c ∈ k.tag.toList ++ ['_'], c.utf8Size = 1 := by
    have ascii : (k.tag.toList ++ ['_']).all (·.utf8Size == 1) = true := by cases k <;> rfl
    exact fun c mem => beq_iff_eq.1 (List.all_eq_true.1 ascii c mem)
  have digits : ∀ c ∈ write 32 Base32.digit 26 i.toNat, c.utf8Size = 1 :=
    forall_mem_write (by decide) (fun n small => (Base32.digit_good n small).2) 26 i.toNat
  have whole : i.toChars = (k.tag.toList ++ ['_']) ++ write 32 Base32.digit 26 i.toNat := by
    rw [toChars, Ulid.toChars, Base32.encode_eq, List.append_assoc, List.singleton_append, toNat]
  rw [toText, textBytes_of_ascii, whole, List.map_append]
  rw [whole]
  exact List.forall_mem_append.2 ⟨front, digits⟩

/-- Texts of one kind compare as the numbers. -/
theorem textBytes_lt_iff (a b : Id k) :
    textBytes a.toText < textBytes b.toText ↔ a.toNat < b.toNat := by
  have fits : ∀ i : Id k, i.toNat < 32 ^ 26 := fun i => Nat.lt_trans i.ulid.val_lt (by decide)
  rw [textBytes_toText, textBytes_toText, append_lt_append_iff,
    write_lt_write_iff (by decide) Base32.digit_rises (fits a) (fits b)]

/-- Of two identifiers of one kind the smaller one is the one whose text is smaller byte by byte,
and the one with the earlier time or, at the same time, with the smaller random part. Any time and
any random part make an identifier, each cut to its field, and any identifier is made so. -/
theorem order_of_texts_and_times (k : IdKind) :
    (∀ a b : Id k,
      (compare a b = .lt ↔ textBytes a.toText < textBytes b.toText) ∧
      (compare a b = .lt ↔ a.ulid.milliseconds < b.ulid.milliseconds ∨
        a.ulid.milliseconds = b.ulid.milliseconds ∧ a.ulid.random < b.ulid.random)) ∧
    (∀ milliseconds random : Nat,
      (Ulid.ofParts milliseconds random).milliseconds = milliseconds % Ulid.timeCount ∧
      (Ulid.ofParts milliseconds random).random = random % Ulid.randomCount) ∧
    ∀ a : Id k, a = ⟨Ulid.ofParts a.ulid.milliseconds a.ulid.random⟩ := by
  refine ⟨fun a b => ?_, Ulid.parts_ofParts, fun a => by rw [Ulid.ofParts_parts]⟩
  have number : compare a b = .lt ↔ a.toNat < b.toNat := Nat.compare_eq_lt
  refine ⟨number.trans (textBytes_lt_iff a b).symm, number.trans ?_⟩
  exact lt_iff_split (by decide : 0 < Ulid.randomCount) a.toNat b.toNat

end Id

end Muster
