import Mathlib.Data.List.Forall2
import Muster.Config
import Muster.Proofs.Identifiers

/-!
# Declared providers read back

Which texts declare a provider, and which one, is said here without the reader: a text declares a
provider if, blanks around it aside, it consists of its parts. `ProviderSpec.Declarable` lists what
the parts must be like, and the limit may be spelled with a plus sign and zeros in front. Every
other text is refused.

Declarations between commas are read back one by one, so whatever is declared in the variable of the
providers is what the configuration holds.

**Main statement.** `ProviderSpec.declarations_exact`.
-/

namespace Muster

/-! ## Decimal numbers -/

namespace Decimal

/-- The digits of `n`, with zeros and a plus sign in front or without. -/
inductive Spells (n : Nat) : List Char → Prop
  | plain (zeros : Nat) : Spells n (List.replicate zeros '0' ++ encode n)
  | signed (zeros : Nat) : Spells n ('+' :: (List.replicate zeros '0' ++ encode n))

/-- All but digits and the plus sign are missing. -/
theorem Spells.not_mem {n : Nat} {cs : List Char} (h : Spells n cs) {c : Char}
    (other : c.isDigit = false ∧ c ≠ '+') : c ∉ cs := by
  have digits : ∀ zeros, c ∉ List.replicate zeros '0' ++ encode n := by
    intro zeros mem
    rcases List.mem_append.1 mem with zero | mem
    · rw [List.eq_of_mem_replicate zero] at other
      cases other.1
    · cases other.1.symm.trans (isDigit_of_mem_encode c mem)
  cases h with
  | plain zeros => exact digits zeros
  | signed zeros => exact List.not_mem_cons_of_ne_of_not_mem other.2 (digits zeros)

theorem fixed_zero (width : Nat) : fixed width 0 = List.replicate width '0' := by
  induction width with
  | zero => rfl
  | succ width ih =>
    rw [fixed, Nat.zero_div, ih, List.replicate_succ']
    rfl

/-- A number in some places is the number with zeros in front. -/
theorem fixed_eq_encode {width n : Nat} (wide : width ≠ 0) (fits : n < 10 ^ width) :
    ∃ zeros, fixed width n = List.replicate zeros '0' ++ encode n := by
  induction width generalizing n with
  | zero => exact absurd rfl wide
  | succ width ih =>
    by_cases small : n < 10
    · refine ⟨width, ?_⟩
      rw [fixed, Nat.div_eq_of_lt small, fixed_zero, Nat.mod_eq_of_lt small, encode,
        Nat.toDigits_of_lt_base small]
    · have more : width ≠ 0 := by
        rintro rfl
        exact small fits
      have high : n / 10 < 10 ^ width := Nat.div_lt_of_lt_mul (by rwa [← Nat.pow_succ'])
      obtain ⟨zeros, same⟩ := ih more high
      refine ⟨zeros, ?_⟩
      rw [fixed, same, encode, encode, Nat.toDigits_of_base_le (n := n) (by decide)
        (Nat.not_lt.1 small), List.append_assoc]

theorem decodeFrom_encode (n : Nat) : decodeFrom 0 (encode n) = some n := by
  induction n using Nat.strongRecOn with
  | ind n ih =>
    by_cases small : n < 10
    · rw [encode, Nat.toDigits_of_lt_base small, decodeFrom, (digit_good n small).1]
      simp [decodeFrom]
    · have last : n % 10 < 10 := Nat.mod_lt n (by decide)
      have high := ih (n / 10) (Nat.div_lt_self (by omega) (by decide))
      rw [decodeFrom_eq] at high
      rw [encode, Nat.toDigits_of_base_le (by decide) (Nat.not_lt.1 small), decodeFrom_eq,
        Positional.readFrom_append, ← encode, high, Option.bind_some, Positional.readFrom,
        (digit_good _ last).1]
      simp only [Option.bind_some, Positional.readFrom]
      congr 1
      omega

theorem decodeFrom_zeros (zeros : Nat) (cs : List Char) :
    decodeFrom 0 (List.replicate zeros '0' ++ cs) = decodeFrom 0 cs := by
  induction zeros with
  | zero => rfl
  | succ zeros ih =>
    rw [List.replicate_succ, List.cons_append]
    exact ih

/-- Each digit is the one written for its value. -/
theorem digitChar_value {c : Char} (digit : c.isDigit = true) :
    c.toNat - '0'.toNat < 10 ∧ Nat.digitChar (c.toNat - '0'.toNat) = c := by
  have each : ∀ k < 10, Nat.digitChar k = Char.ofNat (48 + k) := by decide
  obtain ⟨low, high⟩ := range_of_isDigit digit
  have zero : '0'.toNat = 48 := rfl
  rw [zero]
  refine ⟨by omega, ?_⟩
  rw [each _ (by omega), Nat.add_sub_cancel' low, Char.ofNat_toNat]

/-- The digits of a number, zeros in front aside, are its only ones. -/
theorem decode_eq_some_iff {cs : List Char} {n : Nat} :
    decode cs = some n ↔ ∃ zeros, cs = List.replicate zeros '0' ++ encode n := by
  constructor
  · intro read
    have digits : ∀ c ∈ cs, c.isDigit = true := by
      intro c mem
      by_contra other
      cases cs with
      | nil => cases mem
      | cons d cs =>
        rw [decode, decodeFrom_eq,
          Positional.readFrom_eq_none mem (by rw [value?, if_neg other])] at read
        cases read
    have known : ∀ c ∈ cs, value? c = some (c.toNat - '0'.toNat) := fun c mem => by
      rw [value?, if_pos (digits c mem)]
    have small : ∀ c ∈ cs, c.toNat - '0'.toNat < 10 := fun c mem =>
      (digitChar_value (digits c mem)).1
    have wide : cs.length ≠ 0 := by
      rintro none
      rw [List.length_eq_zero_iff.1 none] at read
      cases read
    -- The text is what is written for its value in as many places.
    have value : Positional.number 10 (fun c => c.toNat - '0'.toNat) cs = n := by
      have all : Positional.readFrom 10 value? 0 cs = _ := Positional.readFrom_eq known 0
      rw [Nat.zero_mul, Nat.zero_add, ← decodeFrom_eq] at all
      cases cs with
      | nil => cases read
      | cons c cs => exact Option.some.inj (all.symm.trans read)
    have written : Positional.write 10 Nat.digitChar cs.length _ = cs :=
      Positional.write_number small fun c mem => (digitChar_value (digits c mem)).2
    have fits := Positional.number_lt (by decide) small
    rw [value] at written fits
    obtain ⟨zeros, same⟩ := fixed_eq_encode wide fits
    exact ⟨zeros, by rw [← same, fixed_eq, written]⟩
  · rintro ⟨zeros, rfl⟩
    have whole := (decodeFrom_zeros zeros (encode n)).trans (decodeFrom_encode n)
    obtain ⟨c, cs, shape, -⟩ := encode_eq_cons n
    cases zeros with
    | zero =>
      rw [shape] at whole ⊢
      exact whole
    | succ zeros => exact whole

/-- The texts of a number that is below the bound. -/
theorem read_eq_some_iff {bound n : Nat} {cs : List Char} :
    read bound cs = some n ↔ n < bound ∧ Spells n cs := by
  have bounded : ∀ digits, (decode digits).bind (fun n => if n < bound then some n else none) =
      some n ↔ n < bound ∧ ∃ zeros, digits = List.replicate zeros '0' ++ encode n := by
    intro digits
    rw [← decode_eq_some_iff, Option.bind_eq_some_iff]
    constructor
    · rintro ⟨m, read, same⟩
      split at same
      · cases same
        exact ⟨‹_›, read⟩
      · cases same
    · rintro ⟨small, read⟩
      exact ⟨n, read, if_pos small⟩
  have unsigned : ∀ rest zeros, '+' :: rest ≠ List.replicate zeros '0' ++ encode n := by
    intro rest zeros same
    have digit : ∀ c ∈ List.replicate zeros '0' ++ encode n, c.isDigit = true := by
      intro c mem
      rcases List.mem_append.1 mem with zero | mem
      · rw [List.eq_of_mem_replicate zero]
        rfl
      · exact isDigit_of_mem_encode c mem
    rw [← same] at digit
    cases digit '+' List.mem_cons_self
  unfold read
  dsimp only
  split
  · rename_i rest
    rw [bounded]
    refine and_congr_right fun _ => ⟨?_, ?_⟩
    · rintro ⟨zeros, rfl⟩
      exact .signed zeros
    · intro spells
      generalize whole : '+' :: rest = cs at spells
      cases spells with
      | plain zeros => exact absurd whole (unsigned rest zeros)
      | signed zeros => exact ⟨zeros, (List.cons.inj whole).2⟩
  · rename_i other
    rw [bounded]
    refine and_congr_right fun _ => ⟨?_, ?_⟩
    · rintro ⟨zeros, rfl⟩
      exact .plain zeros
    · rintro (zeros | zeros)
      · exact ⟨zeros, rfl⟩
      · exact absurd rfl (other _)

end Decimal

/-! ## Blanks around a text -/

namespace Blank

/-- No blank stands at either end. -/
structure Bare (cs : List Char) : Prop where
  front : ∀ c ∈ cs.head?, isBlank c = false
  back : ∀ c ∈ cs.getLast?, isBlank c = false

theorem trimLeft_of_front {cs : List Char} (front : ∀ c ∈ cs.head?, isBlank c = false) :
    trimLeft cs = cs := by
  cases cs with
  | nil => rfl
  | cons c cs => exact trimLeft_cons (front c rfl) cs

theorem trimLeft_append {before : List Char} (blank : ∀ c ∈ before, isBlank c = true)
    (cs : List Char) : trimLeft (before ++ cs) = trimLeft cs :=
  List.dropWhile_append_of_pos blank

theorem front_trimLeft (cs : List Char) : ∀ c ∈ (trimLeft cs).head?, isBlank c = false := by
  intro c mem
  have first := List.head?_dropWhile_not isBlank cs
  rw [show (cs.dropWhile isBlank).head? = some c from mem] at first
  exact first

/-- Blanks around a text are dropped. -/
theorem trim_append {before cs after : List Char} (bare : Bare cs)
    (left : ∀ c ∈ before, isBlank c = true) (right : ∀ c ∈ after, isBlank c = true) :
    trim (before ++ cs ++ after) = cs := by
  have right' : ∀ c ∈ after.reverse, isBlank c = true := fun c mem =>
    right c (List.mem_reverse.1 mem)
  have back : ∀ c ∈ cs.reverse.head?, isBlank c = false := by
    rw [List.head?_reverse]
    exact bare.back
  rw [trim, List.append_assoc, trimLeft_append left]
  cases cs with
  | nil =>
    have none : trimLeft after = [] := by
      rw [← List.append_nil after, trimLeft_append right]
      rfl
    rw [List.nil_append, none]
    rfl
  | cons c cs =>
    have front : ∀ d ∈ (c :: cs ++ after).head?, isBlank d = false := bare.front
    rw [trimLeft_of_front front, List.reverse_append, trimLeft_append right',
      trimLeft_of_front back, List.reverse_reverse]

theorem bare_trim (cs : List Char) : Bare (trim cs) where
  front := by
    intro c mem
    refine front_trimLeft cs c ?_
    -- What is dropped at the back leaves the front as it is.
    have part : trim cs <+: trimLeft cs := by
      rw [trim, ← List.reverse_suffix, List.reverse_reverse]
      exact List.dropWhile_suffix _
    obtain ⟨rest, whole⟩ := part
    rw [← whole, List.head?_append, show (trim cs).head? = some c from mem]
    rfl
  back := by
    rw [trim, List.getLast?_reverse]
    exact front_trimLeft _

end Blank

/-! ## Pieces of a text -/

namespace Split

/-- A text has just one way to be cut. -/
theorem split_eq_iff {sep : Char} {cs : List Char} {pieces : List (List Char)}
    (some : pieces ≠ []) :
    split sep cs = pieces ↔ cs = join sep pieces ∧ ∀ piece ∈ pieces, sep ∉ piece := by
  constructor
  · rintro rfl
    exact ⟨(join_split sep cs).symm, fun piece mem => not_mem_of_mem_split mem⟩
  · rintro ⟨rfl, none⟩
    exact split_join some none

/-- Apart from the separator, the characters of a text are those of its pieces. -/
theorem mem_join {sep c : Char} (other : c ≠ sep) {pieces : List (List Char)} :
    c ∈ join sep pieces ↔ ∃ piece ∈ pieces, c ∈ piece := by
  induction pieces with
  | nil => simp [join]
  | cons piece rest ih =>
    cases rest with
    | nil => simp [join]
    | cons next rest =>
      rw [join, List.mem_append, List.mem_cons, or_iff_right other, ih]
      exact (List.exists_mem_cons_iff (c ∈ ·) _ _).symm

theorem join_eq_nil {sep : Char} {pieces : List (List Char)} (h : join sep pieces = []) :
    pieces = [] ∨ pieces = [[]] := by
  match pieces, h with
  | [], _ => exact .inl rfl
  | [piece], h => exact .inr (congrArg (fun piece => [piece]) h)
  | piece :: next :: rest, h => exact absurd h (by simp [join])

end Split

/-! ## Declarations -/

namespace ProviderSpec

theorem classChars_classOfChars (cs : List Char) : classChars (classOfChars cs) = cs := by
  simp only [classOfChars]
  split
  · exact Eq.symm ‹_›
  · exact String.toList_ofList

theorem classOfChars_classChars {r : ResourceClass} (other : r ≠ .label "_") :
    classOfChars (classChars r) = r := by
  cases r with
  | unlabeled => rfl
  | label name =>
    have named : name.toList ≠ ['_'] := fun same =>
      other (congrArg _ (String.toList_inj.1 same))
    rw [classChars, classOfChars, if_neg named, String.ofList_toList]

variable (p : ProviderSpec)

/-- What a declaration consists of, apart from the limit. -/
def words : List (List Char) := p.name.toList :: p.kind.toList :: p.classes.map classChars

/-- A character that occurs in none of the words. -/
def Lacks (c : Char) : Prop := ∀ word ∈ p.words, c ∉ word

/-- The words with the signs between them. -/
def body : List Char :=
  p.name.toList ++ ':' :: p.kind.toList ++ ':' :: Split.join '|' (p.classes.map classChars)

/-- The texts that declare the provider, without blanks around them. -/
inductive Declares : List Char → Prop
  | unlimited : p.limit = none → Declares p.body
  | limited {n cs} : p.limit = some n → Decimal.Spells n.toNat cs → Declares (p.body ++ ':' :: cs)

/-- The words can be told from what is between them. -/
structure Legible : Prop where
  name : p.name ≠ ""
  kind : p.kind ≠ ""
  colon : p.Lacks ':'
  classes : p.classes ≠ []
  /-- A label holds no bar and is not taken for the class without a label. -/
  labels : ∀ l, .label l ∈ p.classes → '|' ∉ l.toList ∧ l ≠ "_"
  single : p.classes ≠ [.label ""]

/-- There is a text that declares the provider. -/
structure Declarable : Prop extends p.Legible where
  front : ∀ c ∈ p.name.toList.head?, Blank.isBlank c = false
  back : p.limit = none → ∀ c ∈ p.toChars.getLast?, Blank.isBlank c = false

variable {p}

/-! ### Words -/

/-- The classes that the text between two colons lists. -/
theorem classes_eq_iff (classes : List Char) (rs : List ResourceClass) :
    (classes ≠ [] ∧ rs = (Split.split '|' classes).map classOfChars) ↔
      (rs ≠ [] ∧ (∀ l, .label l ∈ rs → '|' ∉ l.toList ∧ l ≠ "_") ∧ rs ≠ [.label ""]) ∧
        classes = Split.join '|' (rs.map classChars) := by
  constructor
  · rintro ⟨some, rfl⟩
    have back : ((Split.split '|' classes).map classOfChars).map classChars =
        Split.split '|' classes := by
      rw [List.map_map]
      exact (List.map_congr_left fun cs _ => classChars_classOfChars cs).trans (List.map_id _)
    have whole : classes =
        Split.join '|' (((Split.split '|' classes).map classOfChars).map classChars) := by
      rw [back, Split.join_split]
    refine ⟨⟨?_, ?_, ?_⟩, whole⟩
    · exact fun none => Split.split_ne_nil _ _ (List.map_eq_nil_iff.1 none)
    · intro l mem
      obtain ⟨piece, mem, same⟩ := List.mem_map.1 mem
      have text : piece = l.toList := by
        rw [← classChars_classOfChars piece, same]
        rfl
      refine ⟨text ▸ Split.not_mem_of_mem_split mem, ?_⟩
      rintro rfl
      rw [text] at same
      cases same
    · intro single
      rw [single] at whole
      exact some whole
  · rintro ⟨⟨some, labels, single⟩, rfl⟩
    have none : ∀ piece ∈ rs.map classChars, '|' ∉ piece := by
      intro piece mem
      obtain ⟨r, listed, rfl⟩ := List.mem_map.1 mem
      cases r with
      | unlabeled => decide
      | label l => exact (labels l listed).1
    refine ⟨fun empty => ?_, ?_⟩
    · rcases Split.join_eq_nil empty with none | one
      · exact some (List.map_eq_nil_iff.1 none)
      · obtain ⟨r, rfl, text⟩ := List.map_eq_singleton_iff.1 one
        cases r with
        | unlabeled => cases text
        | label l => exact single (by rw [String.toList_eq_nil_iff.1 text])
    · rw [Split.split_join (fun empty => some (List.map_eq_nil_iff.1 empty)) none, List.map_map]
      refine ((List.map_congr_left fun r mem => ?_).trans (List.map_id _)).symm
      refine classOfChars_classChars ?_
      rintro rfl
      exact (labels "_" mem).2 rfl

/-- The words between colons make a declaration just if they are its own. -/
theorem ofParts?_eq_some_iff {name kind classes : List Char} {limit : Option Count}
    (colon : ':' ∉ name ∧ ':' ∉ kind ∧ ':' ∉ classes) : ofParts? name kind classes limit = some p ↔
      p.Legible ∧ p.limit = limit ∧ name = p.name.toList ∧ kind = p.kind.toList ∧
        classes = Split.join '|' (p.classes.map classChars) := by
  have lists := classes_eq_iff classes p.classes
  rw [ofParts?]
  constructor
  · intro read
    split at read
    · cases read
    · rename_i nonempty
      simp only [not_or] at nonempty
      cases read
      obtain ⟨⟨some, labels, single⟩, text⟩ := lists.1 ⟨nonempty.2.2, rfl⟩
      refine ⟨⟨?_, ?_, ?_, some, labels, single⟩, rfl, String.toList_ofList.symm,
        String.toList_ofList.symm, text⟩
      · exact fun none => nonempty.1 (by simpa using congrArg String.toList none)
      · exact fun none => nonempty.2.1 (by simpa using congrArg String.toList none)
      · intro word mem
        simp only [words, List.mem_cons, String.toList_ofList] at mem
        rcases mem with rfl | rfl | mem
        · exact colon.1
        · exact colon.2.1
        · intro here
          rw [text] at colon
          exact colon.2.2 ((Split.mem_join (by decide)).2 ⟨word, mem, here⟩)
  · rintro ⟨legible, rfl, rfl, rfl, text⟩
    obtain ⟨some, listed⟩ := lists.2 ⟨⟨legible.classes, legible.labels, legible.single⟩, text⟩
    have named : p.name.toList ≠ [] := fun none => legible.name (String.toList_eq_nil_iff.1 none)
    have kinded : p.kind.toList ≠ [] := fun none => legible.kind (String.toList_eq_nil_iff.1 none)
    rw [if_neg (by simp only [named, kinded, some, or_self, not_false_eq_true]), ← listed,
      String.ofList_toList, String.ofList_toList]

theorem limitOfChars?_eq_some_iff {cs : List Char} {n : Count} :
    limitOfChars? cs = some n ↔ Decimal.Spells n.toNat cs := by
  rw [limitOfChars?, Option.map_eq_some_iff]
  constructor
  · rintro ⟨m, read, rfl⟩
    obtain ⟨small, spells⟩ := Decimal.read_eq_some_iff.1 read
    rw [UInt32.toNat_ofNat_of_lt' small]
    exact spells
  · intro spells
    exact ⟨n.toNat, Decimal.read_eq_some_iff.2 ⟨n.toNat_lt, spells⟩, UInt32.ofNat_toNat⟩

theorem Legible.not_mem_classes (h : p.Legible) :
    ':' ∉ Split.join '|' (p.classes.map classChars) := by
  rw [Split.mem_join (by decide)]
  rintro ⟨word, mem, here⟩
  exact h.colon word (List.mem_cons_of_mem _ (List.mem_cons_of_mem _ mem)) here

theorem Legible.pieces (h : p.Legible) : ':' ∉ p.name.toList ∧ ':' ∉ p.kind.toList ∧
    ':' ∉ Split.join '|' (p.classes.map classChars) :=
  ⟨h.colon _ List.mem_cons_self, h.colon _ (List.mem_cons_of_mem _ List.mem_cons_self),
    h.not_mem_classes⟩

theorem body_eq_join (p : ProviderSpec) : p.body = Split.join ':'
    [p.name.toList, p.kind.toList, Split.join '|' (p.classes.map classChars)] := by
  simp [body, Split.join]

theorem limited_eq_join (p : ProviderSpec) (cs : List Char) : p.body ++ ':' :: cs = Split.join ':'
    [p.name.toList, p.kind.toList, Split.join '|' (p.classes.map classChars), cs] := by
  simp [body, Split.join]

/-- A text is read as a declaration just if, blanks around it aside, it consists of its parts. -/
theorem ofChars?_eq_some_iff_legible {cs : List Char} :
    ofChars? cs = some p ↔ p.Legible ∧ p.Declares (Blank.trim cs) := by
  unfold ofChars?
  generalize Blank.trim cs = text
  constructor
  · intro read
    split at read
    · rename_i name kind classes cut
      obtain ⟨rfl, none⟩ := (Split.split_eq_iff (by simp)).1 cut
      simp only [List.forall_mem_cons] at none
      obtain ⟨legible, limit, rfl, rfl, rfl⟩ :=
        (ofParts?_eq_some_iff ⟨none.1, none.2.1, none.2.2.1⟩).1 read
      rw [← body_eq_join]
      exact ⟨legible, .unlimited limit⟩
    · rename_i name kind classes cs cut
      obtain ⟨rfl, none⟩ := (Split.split_eq_iff (by simp)).1 cut
      simp only [List.forall_mem_cons] at none
      obtain ⟨n, limited, read⟩ := Option.bind_eq_some_iff.1 read
      obtain ⟨legible, limit, rfl, rfl, rfl⟩ :=
        (ofParts?_eq_some_iff ⟨none.1, none.2.1, none.2.2.1⟩).1 read
      rw [← limited_eq_join]
      exact ⟨legible, .limited limit (limitOfChars?_eq_some_iff.1 limited)⟩
    · cases read
  · rintro ⟨legible, declares⟩
    obtain ⟨name, kind, classes⟩ := legible.pieces
    cases declares with
    | unlimited limit =>
      have cut := (Split.split_eq_iff (by simp)).2 ⟨body_eq_join p, by
        simp only [List.forall_mem_cons]
        exact ⟨name, kind, classes, nofun⟩⟩
      rw [cut]
      exact (ofParts?_eq_some_iff legible.pieces).2 ⟨legible, limit, rfl, rfl, rfl⟩
    | @limited n cs limit spells =>
      have cut := (Split.split_eq_iff (by simp)).2 ⟨limited_eq_join p cs, by
        simp only [List.forall_mem_cons]
        exact ⟨name, kind, classes, spells.not_mem (by decide), nofun⟩⟩
      rw [cut]
      show (limitOfChars? cs).bind _ = _
      rw [limitOfChars?_eq_some_iff.2 spells, Option.bind_some]
      exact (ofParts?_eq_some_iff legible.pieces).2 ⟨legible, limit, rfl, rfl, rfl⟩

/-! ### Ends of a declaration -/

theorem Legible.head?_body (h : p.Legible) (rest : List Char) :
    (p.body ++ rest).head? = p.name.toList.head? := by
  have named : p.name.toList ≠ [] := fun none => h.name (String.toList_eq_nil_iff.1 none)
  obtain ⟨c, cs, shape⟩ := List.exists_cons_of_ne_nil named
  simp [body, shape]

/-- A declaration begins with the name. -/
theorem Legible.head?_eq (h : p.Legible) {text : List Char} (declares : p.Declares text) :
    text.head? = p.name.toList.head? := by
  cases declares with
  | unlimited =>
    rw [← List.append_nil p.body]
    exact h.head?_body []
  | limited => exact h.head?_body _

theorem toChars_of_none (limit : p.limit = none) : p.toChars = p.body := by
  rw [toChars, limit]
  exact List.append_nil _

theorem toChars_of_some {n : Count} (limit : p.limit = some n) :
    p.toChars = p.body ++ ':' :: Decimal.encode n.toNat := by
  rw [toChars, limit]
  rfl

/-- The written form of a declaration is one of its texts. -/
theorem declares_toChars (p : ProviderSpec) : p.Declares p.toChars := by
  cases limit : p.limit with
  | none =>
    rw [toChars_of_none limit]
    exact .unlimited limit
  | some n =>
    rw [toChars_of_some limit]
    exact .limited limit (.plain 0)

/-- The texts that declare a provider are those that are read as it. -/
theorem ofChars?_eq_some_iff {cs : List Char} :
    ofChars? cs = some p ↔ p.Declarable ∧ p.Declares (Blank.trim cs) := by
  rw [ofChars?_eq_some_iff_legible]
  refine ⟨fun ⟨legible, declares⟩ => ⟨⟨legible, ?_, ?_⟩, declares⟩,
    fun ⟨declarable, declares⟩ => ⟨declarable.toLegible, declares⟩⟩
  · rw [← legible.head?_eq declares]
    exact (Blank.bare_trim cs).front
  · intro limit
    have bare := Blank.bare_trim cs
    generalize Blank.trim cs = text at declares bare
    cases declares with
    | unlimited =>
      rw [toChars_of_none limit]
      exact bare.back
    | limited limit' => cases limit.symm.trans limit'

theorem Declarable.bare (h : p.Declarable) : Blank.Bare p.toChars where
  front := by
    rw [h.head?_eq p.declares_toChars]
    exact h.front
  back := by
    cases limit : p.limit with
    | none => exact h.back limit
    | some n =>
      intro c mem
      obtain ⟨d, ds, shape, -⟩ := Decimal.encode_eq_cons n.toNat
      have last : c ∈ (Decimal.encode n.toNat).getLast? := by
        rw [toChars_of_some limit, shape] at mem
        rw [shape]
        simpa using mem
      exact Blank.isBlank_of_isDigit (Decimal.isDigit_of_mem_encode c (List.mem_of_getLast? last))

/-! ### Declarations read -/

/-- The text is the written form of the declaration with blanks around it. -/
def Pads (p : ProviderSpec) (text : List Char) : Prop :=
  ∃ before after, (∀ c ∈ before, Blank.isBlank c = true) ∧ (∀ c ∈ after, Blank.isBlank c = true) ∧
    text = before ++ p.toChars ++ after

theorem Declarable.trim_eq (h : p.Declarable) {text : List Char} (pads : p.Pads text) :
    Blank.trim text = p.toChars := by
  obtain ⟨before, after, left, right, rfl⟩ := pads
  exact Blank.trim_append h.bare left right

/-- A text declares the provider, or there is none that it declares. -/
theorem parse_eq_ok_iff {text : String} : parse text = .ok p ↔
    p.Declarable ∧ p.Declares (Blank.trim text.toList) := by
  rw [← ofChars?_eq_some_iff, parse]
  cases ofChars? text.toList with
  | none => exact ⟨nofun, nofun⟩
  | some p' => exact ⟨fun same => congrArg some (Except.ok.inj same),
      fun same => congrArg Except.ok (Option.some.inj same)⟩

theorem parse_eq_error_iff {text : String} {e : ConfigError} : parse text = .error e ↔
    e = .invalidProvider text ∧ ¬ ∃ p : ProviderSpec, p.Declarable ∧
      p.Declares (Blank.trim text.toList) := by
  have readable : (∃ p : ProviderSpec, p.Declarable ∧ p.Declares (Blank.trim text.toList)) ↔
      (ofChars? text.toList).isSome = true := by
    rw [Option.isSome_iff_exists]
    exact exists_congr fun p => ofChars?_eq_some_iff.symm
  rw [readable, parse]
  cases ofChars? text.toList with
  | none =>
    refine ⟨fun same => ⟨(Except.error.inj same).symm, Bool.false_ne_true⟩, fun ⟨same, _⟩ => ?_⟩
    rw [same]
  | some p => exact ⟨nofun, fun ⟨_, unread⟩ => absurd rfl unread⟩

/-- Commas stand in a written declaration only if they stand in its words. -/
theorem not_mem_toChars (lacks : p.Lacks ',') : ',' ∉ p.toChars := by
  have body : ',' ∉ p.body := by
    rw [body_eq_join, Split.mem_join (by decide)]
    simp only [List.mem_cons, List.not_mem_nil, or_false, exists_eq_or_imp, exists_eq_left,
      Split.mem_join (show ',' ≠ '|' by decide)]
    rintro (here | here | ⟨word, mem, here⟩)
    · exact lacks _ List.mem_cons_self here
    · exact lacks _ (List.mem_cons_of_mem _ List.mem_cons_self) here
    · exact lacks word (List.mem_cons_of_mem _ (List.mem_cons_of_mem _ mem)) here
  cases limit : p.limit with
  | none => rwa [toChars_of_none limit]
  | some n =>
    rw [toChars_of_some limit, List.mem_append, List.mem_cons]
    rintro (here | here | here)
    · exact body here
    · cases here
    · exact (Decimal.Spells.plain (n := n.toNat) 0).not_mem (by decide) here

theorem Pads.not_mem {text : List Char} (pads : p.Pads text) (lacks : p.Lacks ',') :
    ',' ∉ text := by
  obtain ⟨before, after, left, right, rfl⟩ := pads
  rw [List.mem_append, List.mem_append]
  rintro ((here | here) | here)
  · cases left _ here
  · exact not_mem_toChars lacks here
  · cases right _ here

theorem toChars_ne_nil (p : ProviderSpec) : p.toChars ≠ [] := by
  simp [toChars]

/-- Each text belongs to one of the declarations. -/
theorem exists_pads {specs : List ProviderSpec} {texts : List (List Char)}
    (pads : List.Forall₂ Pads specs texts) : ∀ text ∈ texts, ∃ p ∈ specs, p.Pads text := by
  induction pads with
  | nil => exact nofun
  | cons first _ ih =>
    intro text mem
    rcases List.mem_cons.1 mem with rfl | mem
    · exact ⟨_, List.mem_cons_self, first⟩
    · obtain ⟨p, listed, pads⟩ := ih text mem
      exact ⟨p, List.mem_cons_of_mem _ listed, pads⟩

/-- Declarations between commas are taken apart. -/
theorem specs_join {specs : List ProviderSpec} {texts : List (List Char)}
    (pads : List.Forall₂ Pads specs texts) (sound : ∀ p ∈ specs, p.Declarable ∧ p.Lacks ',') :
    Config.specs (String.ofList (Split.join ',' texts)) = texts.map String.ofList := by
  have listed := exists_pads pads
  rw [Config.specs, String.toList_ofList]
  congr 1
  by_cases none : texts = []
  · rw [none]
    rfl
  have apart : ∀ text ∈ texts, ',' ∉ text := by
    intro text mem
    obtain ⟨p, mem, pads⟩ := listed text mem
    exact pads.not_mem (sound p mem).2
  rw [Split.split_join none apart, List.filter_eq_self]
  intro text mem
  obtain ⟨p, mem, pads⟩ := listed text mem
  rw [(sound p mem).1.trim_eq pads, List.isEmpty_eq_false_iff.2 p.toChars_ne_nil]
  rfl

theorem mapM_parse {specs : List ProviderSpec} {texts : List (List Char)}
    (pads : List.Forall₂ Pads specs texts) (sound : ∀ p ∈ specs, p.Declarable) :
    (texts.map String.ofList).mapM parse = .ok specs := by
  induction pads with
  | nil => rfl
  | @cons p text specs texts first _ ih =>
    have declarable := sound p List.mem_cons_self
    have read : parse (String.ofList text) = .ok p := by
      rw [parse_eq_ok_iff, String.toList_ofList, declarable.trim_eq first]
      exact ⟨declarable, p.declares_toChars⟩
    rw [List.map_cons, List.mapM_cons, read, ih fun p mem => sound p (List.mem_cons_of_mem _ mem)]
    rfl

end ProviderSpec

/-- The source in which one variable is set. -/
def Config.only (variableName value : String) : String → Option String :=
  fun name => if name = variableName then some value else none

namespace ProviderSpec

/-- Declared providers survive the variable: written one after the other with commas between them
and blanks around them, they are what the configuration holds. A text declares a provider just if,
blanks around it aside, it consists of the parts of a provider that can be declared; every other
text is refused with its blanks. -/
theorem declarations_exact :
    (∀ specs texts, List.Forall₂ Pads specs texts → (∀ p ∈ specs, p.Declarable ∧ p.Lacks ',') →
      Config.ofVariables (Config.only "NODELAY_PROVIDERS"
        (String.ofList (Split.join ',' texts))) = .ok {
        fastProvisioning := true
        reviewIntervalSeconds := 10
        reviewQueueCapacity := 1024
        logLevel := "info"
        strategyKind := none
        providers := specs
        arrivalMilliseconds := none }) ∧
    (∀ text p, parse text = .ok p ↔ p.Declarable ∧ p.Declares (Blank.trim text.toList)) ∧
    ∀ text e, parse text = .error e ↔ e = .invalidProvider text ∧
      ¬ ∃ p : ProviderSpec, p.Declarable ∧ p.Declares (Blank.trim text.toList) := by
  refine ⟨?_, fun _ _ => parse_eq_ok_iff, fun _ _ => parse_eq_error_iff⟩
  intro specs texts pads sound
  have read := mapM_parse pads fun p mem => (sound p mem).1
  rw [← specs_join pads sound] at read
  have providers : Config.readProviders
      (Config.only "NODELAY_PROVIDERS" (String.ofList (Split.join ',' texts))) = .ok specs := read
  rw [Config.ofVariables, providers]
  rfl

/-- A cluster with a limit that serves two classes. -/
def Sample.cluster : ProviderSpec :=
  ⟨"k8s-a", "kubernetes", [.label "linux", .unlabeled], some 5⟩

/-- A provider without a limit. -/
def Sample.docker : ProviderSpec := ⟨"docker", "docker", [.label "linux"], none⟩

/-- Two declarations with a blank between them. -/
theorem declarations_of_sample :
    List.Forall₂ Pads [Sample.cluster, Sample.docker]
      ["k8s-a:kubernetes:linux|_:5".toList, " docker:docker:linux".toList] ∧
    (∀ p ∈ [Sample.cluster, Sample.docker], p.Declarable ∧ p.Lacks ',') ∧
    (Config.ofVariables (Config.only "NODELAY_PROVIDERS"
      "k8s-a:kubernetes:linux|_:5, docker:docker:linux")).map (·.providers) =
        .ok [Sample.cluster, Sample.docker] ∧
    parse "k8s-a:kubernetes:linux|_:+05 " = .ok Sample.cluster := by
  have pads : List.Forall₂ Pads [Sample.cluster, Sample.docker]
      ["k8s-a:kubernetes:linux|_:5".toList, " docker:docker:linux".toList] :=
    .cons ⟨[], [], List.forall_mem_nil _, List.forall_mem_nil _, by decide⟩
      (.cons ⟨[' '], [], List.forall_mem_singleton.2 rfl, List.forall_mem_nil _, by decide⟩ .nil)
  have sound : ∀ p ∈ [Sample.cluster, Sample.docker], p.Declarable ∧ p.Lacks ',' := by
    intro p mem
    simp only [List.mem_cons, List.not_mem_nil, or_false] at mem
    rcases mem with rfl | rfl
    · exact ⟨(ofChars?_eq_some_iff.1 (show ofChars? Sample.cluster.toChars = _ by decide)).1,
        show ∀ word ∈ Sample.cluster.words, ',' ∉ word by decide⟩
    · exact ⟨(ofChars?_eq_some_iff.1 (show ofChars? Sample.docker.toChars = _ by decide)).1,
        show ∀ word ∈ Sample.docker.words, ',' ∉ word by decide⟩
  obtain ⟨survive, exact, -⟩ := declarations_exact
  refine ⟨pads, sound, ?_, (exact _ _).2 ⟨(sound _ List.mem_cons_self).1, ?_⟩⟩
  · have held := survive _ _ pads sound
    have text : String.ofList (Split.join ',' ["k8s-a:kubernetes:linux|_:5".toList,
        " docker:docker:linux".toList]) = "k8s-a:kubernetes:linux|_:5, docker:docker:linux" := by
      decide
    rw [text] at held
    rw [held]
    rfl
  · exact .limited rfl (.signed 1)

end ProviderSpec

end Muster
