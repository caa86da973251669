import Mathlib.Data.List.TakeWhile
import Mathlib.Data.Nat.Digits.Lemmas
import Muster.Proofs.Numerals

/-!
# Texts of identifiers

What a text means as an identifier of a kind, for every text there is: `Id.Reads` says it without
the reader, one case for each outcome, and the conditions of a case rule out the cases before it.
Both cases of a letter are read and the upper two of 130 bits are dropped, so several texts mean one
identifier. Just one of them is its written form: the one in upper case that begins with a digit
below 8.

**Main statement.** `Id.texts_read_exactly`.
-/

namespace Muster

/-! ## Positional notation -/

namespace Positional

variable {base : Nat} {digit : Nat → Char} {value? : Char → Option Nat} {value : Char → Nat}

/-- The number whose digits have these values. -/
def number (base : Nat) (value : Char → Nat) (cs : List Char) : Nat :=
  Nat.ofDigits base (cs.map value).reverse

theorem number_cons (c : Char) (cs : List Char) :
    number base value (c :: cs) = value c * base ^ cs.length + number base value cs := by
  rw [number, List.map_cons, Nat.ofDigits_reverse_cons, List.length_map, Nat.mul_comm,
    Nat.add_comm, number]

theorem number_concat (cs : List Char) (c : Char) :
    number base value (cs ++ [c]) = number base value cs * base + value c := by
  rw [number, List.map_append, List.reverse_append, List.map_singleton, List.reverse_singleton,
    List.singleton_append, Nat.ofDigits_cons, Nat.mul_comm, Nat.add_comm, number]

theorem number_lt (wide : 1 < base) {cs : List Char} (small : ∀ c ∈ cs, value c < base) :
    number base value cs < base ^ cs.length := by
  have bound := Nat.ofDigits_lt_base_pow_length (l := (cs.map value).reverse) wide (by simpa)
  rwa [List.length_reverse, List.length_map] at bound

/-- Digits are read as their number. -/
theorem readFrom_eq {cs : List Char} (known : ∀ c ∈ cs, value? c = some (value c)) (acc : Nat) :
    readFrom base value? acc cs = some (acc * base ^ cs.length + number base value cs) := by
  induction cs generalizing acc with
  | nil => simp [readFrom, number]
  | cons c cs ih =>
    have rest := ih fun d mem => known d (List.mem_cons_of_mem _ mem)
    rw [readFrom, known c List.mem_cons_self, Option.bind_some, rest, number_cons,
      List.length_cons, Nat.pow_succ']
    congr 1
    ring

/-- What is no digit cannot be read. -/
theorem readFrom_eq_none {cs : List Char} {c : Char} (mem : c ∈ cs) (unknown : value? c = none)
    (acc : Nat) : readFrom base value? acc cs = none := by
  induction cs generalizing acc with
  | nil => nomatch mem
  | cons d cs ih =>
    rw [readFrom]
    rcases List.mem_cons.1 mem with rfl | mem
    · rw [unknown, Option.bind_none]
    · cases value? d with
      | none => rfl
      | some n => exact ih mem _

/-- Digits that are the ones written for their values are written again. -/
theorem write_number {cs : List Char} (small : ∀ c ∈ cs, value c < base)
    (own : ∀ c ∈ cs, digit (value c) = c) :
    write base digit cs.length (number base value cs) = cs := by
  induction cs using List.reverseRecOn with
  | nil => rfl
  | append_singleton cs c ih =>
    have last : c ∈ cs ++ [c] := List.mem_append_right _ (List.mem_singleton_self c)
    have before := ih (fun d mem => small d (List.mem_append_left _ mem))
      fun d mem => own d (List.mem_append_left _ mem)
    have high : (number base value cs * base + value c) / base = number base value cs := by
      rw [Nat.add_comm, Nat.add_mul_div_right _ _ (Nat.zero_lt_of_lt (small c last)),
        Nat.div_eq_of_lt (small c last), Nat.zero_add]
    have low : (number base value cs * base + value c) % base = value c := by
      rw [Nat.add_comm, Nat.add_mul_mod_self_right, Nat.mod_eq_of_lt (small c last)]
    rw [List.length_append, List.length_singleton, write, number_concat, high, low, before,
      own c last]

end Positional

open Positional

/-! ## Base 32 -/

namespace Base32

/-- A digit of either case. -/
def IsDigit (c : Char) : Prop := c.toUpper ∈ alphabet

instance : DecidablePred IsDigit := fun c => inferInstanceAs (Decidable (c.toUpper ∈ alphabet))

/-- The value of a digit is its place among the digits. -/
def valueOf (c : Char) : Nat := alphabet.idxOf c.toUpper

/-- The number with these digits. -/
def number (cs : List Char) : Nat := Positional.number 32 valueOf cs

theorem valueOf_lt {c : Char} (h : IsDigit c) : valueOf c < 32 := List.idxOf_lt_length_iff.2 h

theorem value?_eq_some {c : Char} (h : IsDigit c) : value? c = some (valueOf c) :=
  List.findIdx?_eq_some_iff_findIdx_eq.2 ⟨valueOf_lt h, rfl⟩

theorem value?_eq_none {c : Char} (h : ¬ IsDigit c) : value? c = none := by
  refine List.findIdx?_eq_none_iff.2 fun d mem => beq_eq_false_iff_ne.2 ?_
  rintro rfl
  exact h mem

/-- The digit of a value is the one in upper case. -/
theorem digit_valueOf {c : Char} (h : IsDigit c) : digit (valueOf c) = c.toUpper := by
  rw [digit, List.getD_eq_getElem?_getD, List.getElem?_eq_getElem (valueOf_lt h), Option.getD_some]
  exact List.getElem_idxOf (valueOf_lt h)

theorem isLower_iff {c : Char} : c.isLower = true ↔ 'a'.val ≤ c.val ∧ c.val ≤ 'z'.val := by
  show (decide ('a'.val ≤ c.val) && decide (c.val ≤ 'z'.val)) = true ↔ _
  rw [Bool.and_eq_true, decide_eq_true_eq, decide_eq_true_eq]

theorem toUpper_of_not_isLower {c : Char} (h : c.isLower = false) : c.toUpper = c :=
  dif_neg fun lower => Bool.false_ne_true (h.symm.trans (isLower_iff.2 lower))

/-- Digits are written in upper case. -/
theorem digit_not_isLower : ∀ n < 32, (digit n).isLower = false := by decide

theorem digit_le_iff : ∀ n < 32, (digit n ≤ '7' ↔ n < 8) := by decide

theorem decode_eq_some {cs : List Char} (h : ∀ c ∈ cs, IsDigit c) :
    decode cs = some (number cs) := by
  rw [decode, decodeFrom_eq, readFrom_eq fun c mem => value?_eq_some (h c mem), Nat.zero_mul,
    Nat.zero_add, number]

theorem decode_eq_none {cs : List Char} (h : ¬ ∀ c ∈ cs, IsDigit c) : decode cs = none := by
  push Not at h
  obtain ⟨c, mem, other⟩ := h
  rw [decode, decodeFrom_eq, readFrom_eq_none mem (value?_eq_none other)]

/-- Digits in upper case are the ones that are written for their number. -/
theorem encode_number {cs : List Char} (digits : ∀ c ∈ cs, IsDigit c)
    (upper : ∀ c ∈ cs, c.isLower = false) : encode cs.length (number cs) = cs := by
  rw [encode_eq, number]
  refine write_number (fun c mem => valueOf_lt (digits c mem)) fun c mem => ?_
  rw [digit_valueOf (digits c mem), toUpper_of_not_isLower (upper c mem)]

theorem isLower_of_mem_encode {width n : Nat} : ∀ c ∈ encode width n, c.isLower = false := by
  rw [encode_eq]
  exact forall_mem_write (by decide) digit_not_isLower width n

/-- A letter in lower case and every digit take one byte each. -/
theorem utf8Size_of_isDigit {c : Char} (h : IsDigit c) : c.utf8Size = 1 := by
  refine Char.utf8Size_eq_one_iff.2 ?_
  cases lower : c.isLower with
  | true =>
    exact UInt32.le_trans (isLower_iff.1 lower).2 (by decide)
  | false =>
    have ascii : alphabet.all (·.toNat ≤ 127) = true := rfl
    have small := of_decide_eq_true (List.all_eq_true.1 ascii _ h)
    exact toUpper_of_not_isLower lower ▸ UInt32.le_iff_toNat_le.2 small

end Base32

/-! ## ULIDs -/

namespace Ulid

open Base32

/-- 26 digits of either case. -/
structure Spells (cs : List Char) : Prop where
  length : cs.length = 26
  digits : ∀ c ∈ cs, IsDigit c

instance : DecidablePred Spells := fun cs =>
  decidable_of_iff (cs.length = 26 ∧ cs.all (IsDigit ·) = true) <| by
    rw [List.all_eq_true]
    simp only [decide_eq_true_eq]
    exact ⟨fun h => ⟨h.1, h.2⟩, fun h => ⟨h.length, h.digits⟩⟩

/-- 26 digits in upper case that stand for no more than 128 bits. -/
structure Written (cs : List Char) : Prop extends Spells cs where
  upper : ∀ c ∈ cs, c.isLower = false
  first : ∀ c ∈ cs.head?, c ≤ '7'

/-- Why a text is not read as a ULID. -/
def faultOf (cs : List Char) : UlidError :=
  if (String.ofList cs).utf8ByteSize = 26 then .character else .length

theorem ofChars_spells {cs : List Char} (h : Spells cs) :
    ofChars cs = .ok (ofNat (Base32.number cs)) := by
  have size : (String.ofList cs).utf8ByteSize = 26 :=
    (utf8ByteSize_of_ascii fun c mem => utf8Size_of_isDigit (h.digits c mem)).trans h.length
  rw [ofChars, if_neg (not_not_intro size), decode_eq_some h.digits]

theorem ofChars_not_spells {cs : List Char} (h : ¬ Spells cs) :
    ofChars cs = .error (faultOf cs) := by
  by_cases size : (String.ofList cs).utf8ByteSize = 26
  · have other : ¬ ∀ c ∈ cs, IsDigit c := by
      intro digits
      rw [utf8ByteSize_of_ascii fun c mem => utf8Size_of_isDigit (digits c mem)] at size
      exact h ⟨size, digits⟩
    rw [ofChars, if_neg (not_not_intro size), decode_eq_none other, faultOf, if_pos size]
  · rw [ofChars, if_pos size, faultOf, if_neg size]

/-- The first of 26 digits decides whether they stand for no more than 128 bits. -/
theorem number_lt_iff {cs : List Char} (h : Spells cs) (upper : ∀ c ∈ cs, c.isLower = false) :
    Base32.number cs < count ↔ ∀ c ∈ cs.head?, c ≤ '7' := by
  obtain ⟨length, digits⟩ := h
  cases cs with
  | nil => cases length
  | cons c cs =>
    have here : c ∈ c :: cs := List.mem_cons_self
    have rest : Positional.number 32 valueOf cs < 32 ^ 25 := by
      have bound : Positional.number 32 valueOf cs < 32 ^ cs.length :=
        number_lt (by decide) fun d mem => valueOf_lt (digits d (List.mem_cons_of_mem c mem))
      rwa [Nat.succ.inj length] at bound
    have first := digit_le_iff _ (valueOf_lt (digits c here))
    rw [digit_valueOf (digits c here), toUpper_of_not_isLower (upper c here)] at first
    rw [Base32.number, number_cons, Nat.succ.inj length, List.head?_cons]
    simp only [Option.mem_def, Option.some.injEq, forall_eq', first]
    have bits : count = 8 * 32 ^ 25 := by decide
    rw [bits]
    omega

/-- A ULID is written with the digits that it was read from if these are in upper case and stand for
no more than 128 bits, and only then. -/
theorem toChars_ofNat_number {cs : List Char} (h : Spells cs) :
    (ofNat (Base32.number cs)).toChars = cs ↔ Written cs := by
  constructor
  · intro same
    have upper : ∀ c ∈ cs, c.isLower = false := by
      rw [← same]
      exact isLower_of_mem_encode
    have read := ofChars_toChars (ofNat (Base32.number cs))
    refine ⟨h, upper, (number_lt_iff h upper).1 ?_⟩
    have fits : (ofNat (Base32.number cs)).val < 32 ^ 26 :=
      Nat.lt_trans (ofNat (Base32.number cs)).val_lt (by decide)
    have decoded := decode_encode fits
    rw [← toChars, same, decode_eq_some h.digits] at decoded
    rw [Option.some.inj decoded]
    exact (ofNat _).val_lt
  · intro written
    have fits := (number_lt_iff h written.upper).2 written.first
    have same := encode_number h.digits written.upper
    rw [h.length] at same
    have kept : (ofNat (Base32.number cs)).val = Base32.number cs := Nat.mod_eq_of_lt fits
    rw [toChars, kept, same]

end Ulid

/-! ## Identifiers -/

namespace Id

variable {k : IdKind}

/-- What a text means as an identifier of the kind `k`; of several faults, the first. -/
inductive Reads (k : IdKind) : List Char → Except IdError (Id k) → Prop
  | empty : Reads k [] (.error .empty)
  | missingSeparator {cs} : cs ≠ [] → '_' ∉ cs → Reads k cs (.error .missingSeparator)
  | wrongTag {tag rest} : '_' ∉ tag → tag ≠ k.tag.toList →
      Reads k (tag ++ '_' :: rest) (.error (.wrongTag k.tag (String.ofList tag)))
  | badUlid {rest} : ¬ Ulid.Spells rest →
      Reads k (k.tag.toList ++ '_' :: rest) (.error (.badUlid (Ulid.faultOf rest)))
  | identifier {digits} : Ulid.Spells digits →
      Reads k (k.tag.toList ++ '_' :: digits) (.ok ⟨.ofNat (Base32.number digits)⟩)

theorem not_mem_tag (k : IdKind) : '_' ∉ k.tag.toList := by
  cases k <;> decide

/-- What stands after the first underscore is read if the tag is right. -/
theorem ofChars_append {tag : List Char} (plain : '_' ∉ tag) (rest : List Char) :
    ofChars k (tag ++ '_' :: rest) =
      if tag ≠ k.tag.toList then .error (.wrongTag k.tag (String.ofList tag))
      else ((Ulid.ofChars rest).mapError .badUlid).map fun u => ⟨u⟩ := by
  have before : ∀ c ∈ tag, (c != '_') = true := fun c mem =>
    bne_iff_ne.2 fun same => plain (same ▸ mem)
  have first : (tag ++ '_' :: rest).takeWhile (· != '_') = tag := by
    rw [List.takeWhile_append_of_pos before]
    simp
  have second : (tag ++ '_' :: rest).dropWhile (· != '_') = '_' :: rest := by
    rw [List.dropWhile_append_of_pos before]
    simp
  have nonempty : tag ++ '_' :: rest ≠ [] := by simp
  simp only [ofChars, if_neg nonempty, first, second]
  cases Ulid.ofChars rest <;> rfl

theorem ofChars_own (rest : List Char) : ofChars k (k.tag.toList ++ '_' :: rest) =
    ((Ulid.ofChars rest).mapError .badUlid).map fun u => ⟨u⟩ := by
  rw [ofChars_append (not_mem_tag k), if_neg (not_not_intro rfl)]

/-- Nothing else is read than what a text means. -/
theorem Reads.eq {cs : List Char} {o : Except IdError (Id k)} (h : Reads k cs o) :
    ofChars k cs = o := by
  cases h with
  | empty => rfl
  | missingSeparator nonempty plain =>
    have all : cs.dropWhile (· != '_') = [] := List.dropWhile_eq_nil_iff.2 fun c mem =>
      bne_iff_ne.2 fun same => plain (same ▸ mem)
    rw [ofChars, if_neg nonempty, all]
  | wrongTag plain other => rw [ofChars_append plain, if_pos other]
  | badUlid bad =>
    rw [ofChars_own, Ulid.ofChars_not_spells bad]
    rfl
  | identifier spells =>
    rw [ofChars_own, Ulid.ofChars_spells spells]
    rfl

/-- Every text means something. -/
theorem exists_reads (k : IdKind) (cs : List Char) : ∃ o, Reads k cs o := by
  by_cases nonempty : cs = []
  · subst nonempty
    exact ⟨_, .empty⟩
  by_cases sep : '_' ∈ cs
  · obtain ⟨tag, rest, rfl, plain⟩ := List.eq_append_cons_of_mem sep
    by_cases own : tag = k.tag.toList
    · subst own
      by_cases spells : Ulid.Spells rest
      · exact ⟨_, .identifier spells⟩
      · exact ⟨_, .badUlid spells⟩
    · exact ⟨_, .wrongTag plain own⟩
  · exact ⟨_, .missingSeparator nonempty sep⟩

theorem parse_eq_iff {text : String} {o : Except IdError (Id k)} :
    parse k text = o ↔ Reads k text.toList o := by
  constructor
  · rintro rfl
    obtain ⟨o, reads⟩ := exists_reads k text.toList
    rwa [parse, reads.eq]
  · exact Reads.eq

/-- The text of an identifier is the one text in upper case that stands for its 128 bits. -/
theorem toText_parse_iff {text : String} : (∃ i, parse k text = .ok i ∧ i.toText = text) ↔
    ∃ digits, Ulid.Written digits ∧ text.toList = k.tag.toList ++ '_' :: digits := by
  constructor
  · rintro ⟨i, read, rfl⟩
    rw [parse_eq_iff, toText, String.toList_ofList, toChars] at read
    generalize shape : k.tag.toList ++ '_' :: i.ulid.toChars = cs at read
    cases read with
    | @identifier digits spells =>
      have same := List.cons.inj (List.append_cancel_left shape) |>.2
      refine ⟨digits, (Ulid.toChars_ofNat_number spells).1 same, ?_⟩
      rw [toText, String.toList_ofList, toChars, same]
  · rintro ⟨digits, written, shape⟩
    refine ⟨⟨.ofNat (Base32.number digits)⟩, parse_eq_iff.2 ?_, ?_⟩
    · rw [shape]
      exact .identifier written.toSpells
    · rw [toText, toChars, (Ulid.toChars_ofNat_number written.toSpells).2 written, ← shape,
        String.ofList_toList]

theorem tag_inj {k k' : IdKind} (h : k.tag.toList = k'.tag.toList) : k = k' := by
  revert h
  cases k <;> cases k' <;> decide

/-- The text of an identifier is none of another kind. -/
theorem parse_toText_of_ne {k' : IdKind} (other : k ≠ k') (i : Id k) :
    parse k' i.toText = .error (.wrongTag k'.tag k.tag) := by
  have wrong : k.tag.toList ≠ k'.tag.toList := fun same => other (tag_inj same)
  rw [parse_eq_iff, toText, String.toList_ofList, toChars]
  have reads : Reads k' (k.tag.toList ++ '_' :: i.ulid.toChars) _ :=
    .wrongTag (not_mem_tag k) wrong
  rwa [String.ofList_toList] at reads

/-- For every kind and every text: the text is read as what it means, the written form of an
identifier is read as the identifier, a text is the written form of what it is read as just if it
has 26 digits in upper case, the first below 8, behind the tag, and the written form of an
identifier of one kind has the wrong tag for every other kind. -/
theorem texts_read_exactly :
    (∀ (k : IdKind) (text : String) (o : Except IdError (Id k)),
      parse k text = o ↔ Reads k text.toList o) ∧
    (∀ (k : IdKind) (i : Id k), parse k i.toText = .ok i) ∧
    (∀ (k : IdKind) (text : String), (∃ i : Id k, parse k text = .ok i ∧ i.toText = text) ↔
      ∃ digits, Ulid.Written digits ∧ text.toList = k.tag.toList ++ '_' :: digits) ∧
    ∀ (k k' : IdKind) (i : Id k), k ≠ k' →
      parse k' i.toText = .error (.wrongTag k'.tag k.tag) :=
  ⟨fun _ _ _ => parse_eq_iff, fun _ => parse_toText, fun _ _ => toText_parse_iff,
    fun _ _ i other => parse_toText_of_ne other i⟩

/-- A text with a digit in lower case whose first digit is too large is still read; the written form
of a work item is no provider. -/
theorem texts_of_sample : IdKind.workItem ≠ .provider ∧
    parse .provider (ofNat 1 : WorkItemId).toText = .error (.wrongTag "prov" "wi") ∧
    parse .workItem "wi_8000000000000000000000000z" = .ok (ofNat 31) := by
  obtain ⟨exact, -, -, apart⟩ := texts_read_exactly
  have other : IdKind.workItem ≠ .provider := by decide
  have spells : Ulid.Spells "8000000000000000000000000z".toList := by decide
  exact ⟨other, apart .workItem .provider (ofNat 1) other,
    (exact .workItem _ _).2 (.identifier spells)⟩

end Id

end Muster
