import Muster.Proofs.Records

/-!
# Lines of events

An event is written as one line, whatever its texts contain, and no two events have the same line.
The compact form of JSON escapes what could break a line or end a text, and one can always tell
where a value ends: at the character after it, which is a comma, a closing bracket or nothing at
all.

`SelfDelimiting` says that an encoding can be told from whatever follows it. It holds of texts and
numbers, and passes from the elements of arrays and the fields of objects to the whole.

**Main statements.** `Json.toChars_inj`: values with the same compact form are equal.
`Envelope.lines_unambiguous`: so are events and instants with the same line.
-/

namespace Muster

namespace Json

/-! ## Values by their parts -/

/-- What holds of single values, and of arrays and objects if it holds of their parts, holds of all
values. -/
theorem byParts {P : Json → Prop} (null : P null) (bool : ∀ value, P (bool value))
    (integer : ∀ n, P (integer n)) (decimal : ∀ m places, P (decimal m places))
    (string : ∀ s, P (string s)) (array : ∀ elements, (∀ j ∈ elements, P j) → P (array elements))
    (object : ∀ fields, (∀ f ∈ fields, P f.2) → P (object fields)) : ∀ j, P j := by
  refine @Json.rec P (fun elements => ∀ j ∈ elements, P j) (fun fields => ∀ f ∈ fields, P f.2)
    (fun f => P f.2) null bool integer decimal string array object ?_ ?_ ?_ ?_ fun _ _ => id
  · exact fun _ mem => nomatch mem
  · exact fun _ _ head tail => List.forall_mem_cons.2 ⟨head, tail⟩
  · exact fun _ mem => nomatch mem
  · exact fun _ _ head tail => List.forall_mem_cons.2 ⟨head, tail⟩

/-- Encodings with commas between them. -/
def commas {α : Type} (enc : α → List Char) : List α → List Char
  | [] => []
  | [a] => enc a
  | a :: next :: rest => enc a ++ ',' :: commas enc (next :: rest)

/-- A field with its name. -/
def fieldEnc (f : String × Json) : List Char := textChars f.1 ++ ':' :: toChars f.2

theorem elementChars_eq (elements : List Json) : elementChars elements = commas toChars elements := by
  induction elements with
  | nil => rfl
  | cons j rest ih =>
    cases rest with
    | nil => rfl
    | cons next rest => rw [elementChars, ih, commas]

theorem fieldChars_eq (fields : List (String × Json)) :
    fieldChars fields = commas fieldEnc fields := by
  induction fields with
  | nil => rfl
  | cons f rest ih =>
    cases rest with
    | nil => rfl
    | cons next rest => rw [fieldChars, ih, commas, fieldEnc]

/-! ## Escapes -/

/-- The value of a hexadecimal digit. -/
def hexValue (c : Char) : Nat := if c.isDigit then c.toNat - 48 else c.toNat - 87

/-- Takes one character of a text off the front, escaped or not; a quote is the end of the text. -/
def unescape? : List Char → Option (Char × List Char)
  | '\\' :: '"' :: rest => some ('"', rest)
  | '\\' :: '\\' :: rest => some ('\\', rest)
  | '\\' :: 'b' :: rest => some ('\x08', rest)
  | '\\' :: 't' :: rest => some ('\t', rest)
  | '\\' :: 'n' :: rest => some ('\n', rest)
  | '\\' :: 'f' :: rest => some ('\x0c', rest)
  | '\\' :: 'r' :: rest => some ('\r', rest)
  | '\\' :: 'u' :: '0' :: '0' :: a :: b :: rest =>
    some (Char.ofNat (hexValue a * 16 + hexValue b), rest)
  | '"' :: _ => none
  | c :: rest => some (c, rest)
  | [] => none

/-- A character is escaped by a letter or by its number, or it stands for itself. -/
theorem escape_cases (c : Char) :
    (∃ d, escape c = ['\\', d] ∧ 0x20 ≤ d.toNat ∧
      ∀ rest, unescape? ('\\' :: d :: rest) = some (c, rest)) ∨
    (c.toNat < 0x20 ∧ escape c =
      ['\\', 'u', '0', '0', Nat.digitChar (c.toNat / 16), Nat.digitChar (c.toNat % 16)]) ∨
    (0x20 ≤ c.toNat ∧ c ≠ '"' ∧ c ≠ '\\' ∧ escape c = [c]) := by
  unfold escape
  split
  iterate 7 exact .inl ⟨_, rfl, by decide, fun _ => rfl⟩
  rename_i quote backslash _ _ _ _ _
  split
  · rename_i control
    exact .inr (.inl ⟨control, rfl⟩)
  · rename_i above
    exact .inr (.inr ⟨Nat.le_of_not_lt above, quote, backslash, rfl⟩)

/-! ## Single lines -/

/-- No character is below the space. -/
def Clean (cs : List Char) : Prop := ∀ c ∈ cs, 0x20 ≤ c.toNat

instance (cs : List Char) : Decidable (Clean cs) := List.decidableBAll _ cs

theorem Clean.append {cs ds : List Char} (h : Clean cs) (h' : Clean ds) : Clean (cs ++ ds) :=
  List.forall_mem_append.2 ⟨h, h'⟩

theorem Clean.cons {c : Char} {cs : List Char} (h : 0x20 ≤ c.toNat) (h' : Clean cs) :
    Clean (c :: cs) :=
  List.forall_mem_cons.2 ⟨h, h'⟩

theorem clean_encode (n : Nat) : Clean (Decimal.encode n) := by
  intro c mem
  have digit := Decimal.isDigit_of_mem_encode c mem
  simp only [Char.isDigit, Bool.and_eq_true, decide_eq_true_eq, UInt32.le_iff_toNat_le] at digit
  exact Nat.le_trans (by decide) digit.1

theorem clean_integerChars (n : Int) : Clean (integerChars n) := by
  unfold integerChars
  split
  · exact .cons (by decide) (clean_encode _)
  · exact clean_encode _

theorem clean_escape (c : Char) : Clean (escape c) := by
  rcases escape_cases c with ⟨d, shape, above, -⟩ | ⟨control, shape⟩ | ⟨above, -, -, shape⟩
  · rw [shape]
    exact .cons (by decide) (.cons above fun _ mem => nomatch mem)
  · have digits : ∀ n < 32, Clean ['\\', 'u', '0', '0', Nat.digitChar (n / 16),
        Nat.digitChar (n % 16)] := by decide
    rw [shape]
    exact digits _ control
  · rw [shape]
    exact .cons above fun _ mem => nomatch mem

theorem clean_textChars (s : String) : Clean (textChars s) := by
  refine .cons (by decide) (.append ?_ (.cons (by decide) fun _ mem => nomatch mem))
  intro d mem
  obtain ⟨c, -, mem⟩ := List.mem_flatMap.1 mem
  exact clean_escape c d mem

theorem clean_commas {α : Type} {enc : α → List Char} {l : List α}
    (h : ∀ a ∈ l, Clean (enc a)) : Clean (commas enc l) := by
  induction l with
  | nil => exact fun _ mem => nomatch mem
  | cons a rest ih =>
    obtain ⟨first, others⟩ := List.forall_mem_cons.1 h
    cases rest with
    | nil => exact first
    | cons next rest => exact first.append (.cons (by decide) (ih others))

/-- A value is a single line. -/
theorem clean_toChars (j : Json) : Clean j.toChars := by
  induction j using byParts with
  | null =>
    rw [toChars]
    decide
  | bool value =>
    cases value <;> rw [toChars] <;> decide
  | integer n => exact clean_integerChars n
  | decimal m places =>
    exact (clean_integerChars m).append (.cons (by decide) (.cons (by decide) (clean_encode _)))
  | string s => exact clean_textChars s
  | array elements ih =>
    rw [toChars, elementChars_eq]
    exact .cons (by decide) ((clean_commas ih).append (.cons (by decide) fun _ mem => nomatch mem))
  | object fields ih =>
    rw [toChars, fieldChars_eq]
    refine .cons (by decide) (.append (clean_commas fun f mem => ?_)
      (.cons (by decide) fun _ mem => nomatch mem))
    exact (clean_textChars f.1).append (.cons (by decide) (ih f mem))

/-! ## Texts -/

theorem unescape?_escape (c : Char) (rest : List Char) :
    unescape? (escape c ++ rest) = some (c, rest) := by
  rcases escape_cases c with ⟨d, shape, -, back⟩ | ⟨control, shape⟩ | ⟨-, quote, backslash, shape⟩
  · rw [shape]
    exact back rest
  · have digits : ∀ n < 32, Char.ofNat (hexValue (Nat.digitChar (n / 16)) * 16 +
        hexValue (Nat.digitChar (n % 16))) = Char.ofNat n := by decide
    rw [shape]
    refine (congrArg (fun d => some (d, rest)) (digits _ control)).trans ?_
    rw [Char.ofNat_toNat]
  · rw [shape, List.singleton_append]
    unfold unescape?
    split <;> simp_all

/-- A text and what follows it can be told apart. -/
theorem textChars_append_inj {s s' : String} {rest rest' : List Char}
    (same : textChars s ++ rest = textChars s' ++ rest') : s = s' ∧ rest = rest' := by
  have escapes : ∀ cs cs' : List Char, cs.flatMap escape ++ '"' :: rest =
      cs'.flatMap escape ++ '"' :: rest' → cs = cs' ∧ rest = rest' := by
    intro cs
    induction cs with
    | nil =>
      intro cs' same
      cases cs' with
      | nil => exact ⟨rfl, List.tail_eq_of_cons_eq same⟩
      | cons c' cs' =>
        have first := congrArg unescape? same
        rw [List.flatMap_cons, List.append_assoc, unescape?_escape] at first
        cases first
    | cons c cs ih =>
      intro cs' same
      have first := congrArg unescape? same
      rw [List.flatMap_cons, List.append_assoc, unescape?_escape] at first
      cases cs' with
      | nil => cases first
      | cons c' cs' =>
        rw [List.flatMap_cons, List.append_assoc, unescape?_escape] at first
        obtain ⟨rfl, later⟩ := Prod.mk.inj (Option.some.inj first)
        obtain ⟨rfl, rests⟩ := ih cs' later
        exact ⟨rfl, rests⟩
  simp only [textChars, List.cons_append, List.append_assoc, List.nil_append, List.cons.injEq,
    true_and] at same
  obtain ⟨chars, rests⟩ := escapes _ _ same
  exact ⟨String.toList_inj.1 chars, rests⟩

/-! ## Numbers -/

/-- A number does not begin with a sign of its own. -/
theorem encode_append_ne {n : Nat} {c : Char} {rest rest' : List Char} (sign : c.isDigit = false) :
    c :: rest ≠ Decimal.encode n ++ rest' := by
  obtain ⟨d, ds, shape, digit⟩ := Decimal.encode_eq_cons n
  rw [shape]
  intro same
  rw [← List.head_eq_of_cons_eq same, sign] at digit
  cases digit

/-- An integer and what follows it can be told apart. -/
theorem integerChars_append_inj {m n : Int} {rest rest' : List Char} (stop : Decimal.Stops rest)
    (stop' : Decimal.Stops rest') (same : integerChars m ++ rest = integerChars n ++ rest') :
    m = n ∧ rest = rest' := by
  unfold integerChars at same
  split at same
  · split at same
    · obtain ⟨value, rests⟩ := Decimal.encode_append_inj stop stop' (List.tail_eq_of_cons_eq same)
      exact ⟨by omega, rests⟩
    · exact absurd same (encode_append_ne rfl)
  · split at same
    · exact absurd same.symm (encode_append_ne rfl)
    · obtain ⟨value, rests⟩ := Decimal.encode_append_inj stop stop' same
      exact ⟨by omega, rests⟩

/-! ## Where a value ends -/

/-- A value may end here. -/
def Ends (rest : List Char) : Prop := ∀ c ∈ rest.head?, c = ',' ∨ c = ']' ∨ c = '\x7d'

theorem ends_nil : Ends [] := fun _ mem => nomatch mem

theorem ends_cons {c : Char} (h : c = ',' ∨ c = ']' ∨ c = '\x7d') (rest : List Char) :
    Ends (c :: rest) := by
  rintro d ⟨⟩
  exact h

theorem Ends.stops {rest : List Char} (h : Ends rest) : Decimal.Stops rest := by
  intro c mem
  rcases h c mem with rfl | rfl | rfl <;> rfl

/-- Where a value ends, it does not go on with a scale. -/
theorem Ends.not_scale {rest scale : List Char} (h : Ends rest) : rest ≠ 'e' :: scale := by
  rintro rfl
  rcases h 'e' rfl with e | e | e <;> cases e

/-- The encoding of `a` and what follows it can be told apart. -/
def SelfDelimiting {α : Type} (enc : α → List Char) (a : α) : Prop :=
  ∀ a' rest rest', Ends rest → Ends rest' → enc a ++ rest = enc a' ++ rest' → a = a' ∧ rest = rest'

/-! ## Arrays and objects -/

section Commas

variable {α : Type} {enc : α → List Char} {close : Char}

/-- What stands after the first of several encodings. -/
def afterFirst (enc : α → List Char) (close : Char) (rest : List Char) : List α → List Char
  | [] => close :: rest
  | next => ',' :: commas enc next ++ close :: rest

theorem commas_cons (a : α) (l : List α) (rest : List Char) :
    commas enc (a :: l) ++ close :: rest = enc a ++ afterFirst enc close rest l := by
  cases l <;> simp [commas, afterFirst]

theorem ends_afterFirst (h : close = ']' ∨ close = '\x7d') (rest : List Char) (l : List α) :
    Ends (afterFirst enc close rest l) := by
  cases l with
  | nil => exact ends_cons (.inr h) _
  | cons a l => exact ends_cons (.inl rfl) _

/-- A list between brackets and what follows it can be told apart if its elements can, and if none
of them looks like the bracket. -/
theorem commas_append_inj (h : close = ']' ∨ close = '\x7d')
    (starts : ∀ a rest rest', enc a ++ rest ≠ close :: rest') {l : List α}
    (each : ∀ a ∈ l, SelfDelimiting enc a) (l' : List α) (rest rest' : List Char)
    (same : commas enc l ++ close :: rest = commas enc l' ++ close :: rest') :
    l = l' ∧ rest = rest' := by
  have comma : ',' ≠ close := by rcases h with rfl | rfl <;> decide
  induction l generalizing l' with
  | nil =>
    cases l' with
    | nil => exact ⟨rfl, List.tail_eq_of_cons_eq same⟩
    | cons a' l' =>
      rw [commas_cons] at same
      exact absurd same.symm (starts _ _ _)
  | cons a l ih =>
    obtain ⟨first, others⟩ := List.forall_mem_cons.1 each
    rw [commas_cons] at same
    cases l' with
    | nil => exact absurd same (starts _ _ _)
    | cons a' l' =>
      rw [commas_cons] at same
      obtain ⟨rfl, later⟩ :=
        first a' _ _ (ends_afterFirst h rest l) (ends_afterFirst h rest' l') same
      -- The next character says whether there is another element.
      cases l with
      | nil =>
        cases l' with
        | nil => exact ⟨rfl, List.tail_eq_of_cons_eq later⟩
        | cons b' l' => exact absurd (List.head_eq_of_cons_eq later).symm comma
      | cons b l =>
        cases l' with
        | nil => exact absurd (List.head_eq_of_cons_eq later) comma
        | cons b' l' =>
          obtain ⟨tails, rests⟩ := ih others (b' :: l') (List.tail_eq_of_cons_eq later)
          exact ⟨congrArg (a :: ·) tails, rests⟩

end Commas

/-! ## Values -/

/-- The character that a value begins with; one stands for all signs and digits, and one for both
truth values. -/
def lead : Json → Char
  | null => 'n'
  | bool _ => 't'
  | integer _ | decimal _ _ => '0'
  | string _ => '"'
  | array _ => '['
  | object _ => '\x7b'

/-- The kind of value that begins with this character. -/
def leadOf (c : Char) : Char :=
  if c = '-' ∨ c.isDigit = true then '0' else if c = 'f' then 't' else c

theorem integerChars_eq_cons (n : Int) : ∃ c cs, integerChars n = c :: cs ∧ leadOf c = '0' := by
  unfold integerChars
  split
  · exact ⟨'-', _, rfl, rfl⟩
  · obtain ⟨c, cs, shape, digit⟩ := Decimal.encode_eq_cons n.natAbs
    exact ⟨c, cs, shape, if_pos (.inr digit)⟩

theorem toChars_eq_cons (j : Json) : ∃ c cs, j.toChars = c :: cs ∧ leadOf c = j.lead := by
  cases j with
  | null => exact ⟨'n', _, rfl, rfl⟩
  | bool value => cases value <;> exact ⟨_, _, rfl, rfl⟩
  | integer n => exact integerChars_eq_cons n
  | decimal m places =>
    obtain ⟨c, cs, shape, kind⟩ := integerChars_eq_cons m
    exact ⟨c, cs ++ 'e' :: '-' :: Decimal.encode places, by rw [toChars, shape]; rfl, kind⟩
  | string s => exact ⟨'"', _, rfl, rfl⟩
  | array elements => exact ⟨'[', _, rfl, rfl⟩
  | object fields => exact ⟨'\x7b', _, rfl, rfl⟩

/-- Values of different kinds do not begin alike. -/
theorem lead_eq {j j' : Json} {rest rest' : List Char}
    (same : j.toChars ++ rest = j'.toChars ++ rest') : j.lead = j'.lead := by
  obtain ⟨c, cs, shape, kind⟩ := j.toChars_eq_cons
  obtain ⟨c', cs', shape', kind'⟩ := j'.toChars_eq_cons
  rw [shape, shape'] at same
  rw [← kind, ← kind', List.head_eq_of_cons_eq same]

theorem toChars_append_ne {close : Char} (h : close = ']' ∨ close = '\x7d') (j : Json)
    (rest rest' : List Char) : j.toChars ++ rest ≠ close :: rest' := by
  obtain ⟨c, cs, shape, kind⟩ := j.toChars_eq_cons
  rw [shape]
  intro same
  rw [List.head_eq_of_cons_eq same] at kind
  rcases h with rfl | rfl <;> cases j <;> cases kind

/-- A name and its value can be told from what follows them. -/
theorem selfDelimiting_field {f : String × Json} (value : SelfDelimiting toChars f.2) :
    SelfDelimiting fieldEnc f := by
  intro f' rest rest' ends ends' same
  simp only [fieldEnc, List.append_assoc, List.cons_append] at same
  obtain ⟨name, later⟩ := textChars_append_inj same
  obtain ⟨same', rests⟩ := value f'.2 rest rest' ends ends' (List.tail_eq_of_cons_eq later)
  exact ⟨Prod.ext name same', rests⟩

/-- A value and what follows it can be told apart. -/
theorem selfDelimiting_toChars (j : Json) : SelfDelimiting toChars j := by
  induction j using byParts with
  | null =>
    intro j' rest rest' _ _ same
    cases j' with
    | null => exact ⟨rfl, List.append_cancel_left same⟩
    | _ => cases lead_eq same
  | bool value =>
    intro j' rest rest' _ _ same
    cases j' with
    | bool value' =>
      cases value <;> cases value' <;> first
        | exact ⟨rfl, List.append_cancel_left same⟩
        | cases List.head_eq_of_cons_eq same
    | _ => cases lead_eq same
  | integer n =>
    intro j' rest rest' ends ends' same
    cases j' with
    | integer n' =>
      obtain ⟨rfl, rests⟩ := integerChars_append_inj ends.stops ends'.stops same
      exact ⟨rfl, rests⟩
    | decimal m' places' =>
      simp only [toChars, List.append_assoc, List.cons_append] at same
      have scale : Decimal.Stops ('e' :: '-' :: (Decimal.encode places' ++ rest')) := by
        rintro c ⟨⟩
        rfl
      exact absurd (integerChars_append_inj ends.stops scale same).2 ends.not_scale
    | _ => cases lead_eq same
  | decimal m places =>
    intro j' rest rest' ends ends' same
    have scale : ∀ places rest, Decimal.Stops ('e' :: '-' :: (Decimal.encode places ++ rest)) := by
      rintro places rest c ⟨⟩
      rfl
    cases j' with
    | integer n' =>
      simp only [toChars, List.append_assoc, List.cons_append] at same
      exact absurd (integerChars_append_inj (scale _ _) ends'.stops same).2.symm ends'.not_scale
    | decimal m' places' =>
      simp only [toChars, List.append_assoc, List.cons_append] at same
      obtain ⟨rfl, scales⟩ := integerChars_append_inj (scale _ _) (scale _ _) same
      obtain ⟨rfl, rests⟩ := Decimal.encode_append_inj ends.stops ends'.stops
        (List.tail_eq_of_cons_eq (List.tail_eq_of_cons_eq scales))
      exact ⟨rfl, rests⟩
    | _ => cases lead_eq same
  | string s =>
    intro j' rest rest' _ _ same
    cases j' with
    | string s' =>
      obtain ⟨rfl, rests⟩ := textChars_append_inj same
      exact ⟨rfl, rests⟩
    | _ => cases lead_eq same
  | array elements ih =>
    intro j' rest rest' _ _ same
    cases j' with
    | array elements' =>
      simp only [toChars, elementChars_eq, List.cons_append, List.append_assoc, List.nil_append]
        at same
      obtain ⟨rfl, rests⟩ := commas_append_inj (.inl rfl) (toChars_append_ne (.inl rfl)) ih
        elements' rest rest' (List.tail_eq_of_cons_eq same)
      exact ⟨rfl, rests⟩
    | _ => cases lead_eq same
  | object fields ih =>
    intro j' rest rest' _ _ same
    cases j' with
    | object fields' =>
      simp only [toChars, fieldChars_eq, List.cons_append, List.append_assoc, List.nil_append]
        at same
      have starts : ∀ f rest rest', fieldEnc f ++ rest ≠ '\x7d' :: rest' :=
        fun f rest rest' same => nomatch List.head_eq_of_cons_eq same
      obtain ⟨rfl, rests⟩ := commas_append_inj (.inr rfl) starts
        (fun f mem => selfDelimiting_field (ih f mem)) fields' rest rest'
        (List.tail_eq_of_cons_eq same)
      exact ⟨rfl, rests⟩
    | _ => cases lead_eq same

/-- Values with the same compact form are equal. -/
theorem toChars_inj {j j' : Json} (same : j.toChars = j'.toChars) : j = j' :=
  (selfDelimiting_toChars j j' [] [] ends_nil ends_nil (congrArg (· ++ []) same)).1

end Json

/-! ## Lines -/

/-- An event at an instant is written as a single line, and no other event and no other instant are
written as the same line. -/
theorem Envelope.lines_unambiguous (e e' : Event) {t t' : Instant} (ht : t.Ordinary)
    (ht' : t'.Ordinary) : (∀ c ∈ (Envelope.at e t).toLine.toList, 0x20 ≤ c.toNat) ∧
      ((Envelope.at e t).toLine = (Envelope.at e' t').toLine → e = e' ∧ t = t') := by
  constructor
  · rw [toLine, Json.toText, String.toList_ofList]
    exact Json.clean_toChars _
  · intro same
    have values : (Envelope.at e t).toJson = (Envelope.at e' t').toJson :=
      Json.toChars_inj (String.ofList_inj.1 same)
    have back := Envelope.ofJson?_toJson (e := .at e t) ht
    rw [values, Envelope.ofJson?_toJson (e := .at e' t') ht'] at back
    injection back with envelopes
    exact ⟨(congrArg Envelope.payload envelopes).symm, (congrArg Envelope.occurredAt envelopes).symm⟩

/-- A reason that tries to end the line and the record. -/
def Sample.forged : Event := .strategyFailed (.ofNat 1) "first" "\"\x7d\n\x7b"

/-- The line is not broken, and it is another one than that of the event without the forgery. -/
theorem line_of_forged : Sample.leapSecond.Ordinary ∧
    (∀ c ∈ (Envelope.at Sample.forged Sample.leapSecond).toLine.toList, 0x20 ≤ c.toNat) ∧
    (Envelope.at Sample.forged Sample.leapSecond).toLine ≠
      (Envelope.at (.strategyFailed (.ofNat 1) "first" "") Sample.leapSecond).toLine := by
  obtain ⟨single, unambiguous⟩ := Envelope.lines_unambiguous Sample.forged
    (.strategyFailed (.ofNat 1) "first" "") Sample.leapSecond_ordinary Sample.leapSecond_ordinary
  exact ⟨Sample.leapSecond_ordinary, single, fun same =>
    absurd (unambiguous same).1 (by decide)⟩

end Muster
