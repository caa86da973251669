import Muster.Event.Json
import Muster.Proofs.Timestamps

/-!
# Records read back

Whatever is kept as JSON is read back as it was: classes, work items, planned capacity, events and
their envelopes. Fields that may be absent are read both where they are left out and where they are
null, and none of the records has two fields of one name.

**Main statement.** `persisted_read_back`.
-/

namespace Muster

/-! ## Values -/

namespace Json

@[simp] theorem asCount?_ofCount (n : Count) : (ofCount n).asCount? = some n := by
  have small := Count.toNat_lt n
  have positive : (0 : Int) ≤ n.toNat ∧ (n.toNat : Int) < 4294967296 := by omega
  simp only [ofCount, asCount?, if_pos positive, Int.toNat_natCast]
  exact congrArg some UInt32.ofNat_toNat

@[simp] theorem asText?_string (s : String) : (string s).asText? = some s := rfl

/-- What is left out is absent. -/
@[simp] theorem optional?_none {α : Type} (read : Json → Option α) :
    optional? read none = some none := rfl

/-- What is written as a text is there. -/
@[simp] theorem optional?_string {α : Type} (read : Json → Option α) (s : String) :
    optional? read (some (string s)) = (read (string s)).map some := rfl

/-- An absent label is written as null. -/
@[simp] theorem optional?_label (label : Option String) :
    optional? asText? (some (ofOption string label)) = some label := by
  cases label <;> rfl

theorem asList?_map {α : Type} {read : Json → Option α} {write : α → Json}
    (back : ∀ a, read (write a) = some a) (l : List α) :
    asList? read (array (l.map write)) = some l := by
  rw [asList?]
  induction l with
  | nil => rfl
  | cons a l ih => simp [List.mapM_cons, back, ih]

end Json

@[simp] theorem Id.ofJson?_toJson {k : IdKind} (i : Id k) : Id.ofJson? k i.toJson = some i := by
  simp [ofJson?, toJson, parse_toText, Except.toOption]

@[simp] theorem Id.optional?_toJson {k : IdKind} (i : Id k) :
    Json.optional? (Id.ofJson? k) (some i.toJson) = some (some i) :=
  congrArg (Option.map some) i.ofJson?_toJson

theorem Instant.ofJson?_toJson {t : Instant} (ordinary : t.Ordinary) :
    Instant.ofJson? t.toJson = some t := by
  simp [ofJson?, toJson, parse?_toText ordinary]

@[simp] theorem ResourceClass.ofJson?_toJson (r : ResourceClass) :
    ResourceClass.ofJson? r.toJson = some r := by
  cases r with
  | unlabeled => rfl
  | label name => rfl

/-! ## Records -/

theorem WorkItem.ofJson?_toJson {w : WorkItem} (ordinary : w.enqueuedAt.Ordinary) :
    WorkItem.ofJson? w.toJson = some w := by
  simp [ofJson?, toJson, Json.record?, Json.field?, Instant.ofJson?_toJson ordinary]

theorem PlannedCapacity.ofJson?_toJson (p : PlannedCapacity) :
    PlannedCapacity.ofJson? p.toJson = some p := by
  simp [ofJson?, toJson, Json.record?, Json.field?]

theorem ReviewSource.ofJson?_toJson (s : ReviewSource) : ReviewSource.ofJson? s.toJson = some s := by
  cases s <;> rfl

@[simp] theorem ReviewSource.ofEventField?_toJson (s : ReviewSource) :
    ReviewSource.ofEventField? s.toJson = some s := by
  cases s <;> rfl

/-! ## Events -/

namespace Event

/-- An event is read by its tag, from fields of which none is called `type` again. -/
theorem ofJson?_toJson (e : Event) : Event.ofJson? e.toJson = some e := by
  cases e with
  | reviewRequested label source workItem =>
    cases workItem <;>
      simp [ofJson?, toJson, tag, fields, ofTagged?, labelJson, present, Json.record?, Json.field?]
  | reviewCoalesced label =>
    simp [ofJson?, toJson, tag, fields, ofTagged?, labelJson, Json.record?, Json.field?]
  | reviewCompleted review label run requested unsatisfied completedBy =>
    cases completedBy <;>
      simp [ofJson?, toJson, tag, fields, ofTagged?, labelJson, present, Json.record?, Json.field?]
  | provisionRequested review provider label units planned =>
    have ids := Json.asList?_map (Id.ofJson?_toJson (k := .planned)) planned
    simp [ofJson?, toJson, tag, fields, ofTagged?, labelJson, Json.record?, Json.field?, ids]
  | provisionFailed review provider label reason =>
    simp [ofJson?, toJson, tag, fields, ofTagged?, labelJson, Json.record?, Json.field?]
  | strategyFailed review strategy reason =>
    simp [ofJson?, toJson, tag, fields, ofTagged?, Json.record?, Json.field?]

end Event

/-! ## Envelopes -/

theorem Envelope.ofJson?_toJson {e : Envelope} (ordinary : e.occurredAt.Ordinary) :
    Envelope.ofJson? e.toJson = some e := by
  obtain ⟨occurredAt, typeName, review, payload⟩ := e
  have time := Instant.ofJson?_toJson ordinary
  cases review <;>
    simp [ofJson?, toJson, Event.present, Json.record?, Json.field?, Event.ofJson?_toJson, time]

/-- All that is kept as JSON is read back as it was, with instants of the years 0 to 9999. What is
read of an envelope is that envelope, and so it is written as the same line. -/
theorem persisted_read_back :
    (∀ r : ResourceClass, ResourceClass.ofJson? r.toJson = some r) ∧
    (∀ w : WorkItem, w.enqueuedAt.Ordinary → WorkItem.ofJson? w.toJson = some w) ∧
    (∀ p : PlannedCapacity, PlannedCapacity.ofJson? p.toJson = some p) ∧
    (∀ s : ReviewSource, ReviewSource.ofJson? s.toJson = some s) ∧
    (∀ e : Event, Event.ofJson? e.toJson = some e) ∧
    ∀ (e : Event) (t : Instant), t.Ordinary →
      Envelope.ofJson? (Envelope.at e t).toJson = some (.at e t) :=
  ⟨ResourceClass.ofJson?_toJson, fun _ => WorkItem.ofJson?_toJson, PlannedCapacity.ofJson?_toJson,
    ReviewSource.ofJson?_toJson, Event.ofJson?_toJson,
    fun e t => Envelope.ofJson?_toJson (e := .at e t)⟩

/-- Half a second into the leap second at the end of 2016. -/
def Sample.leapSecond : Instant := ⟨1483228799, 1500000000⟩

theorem Sample.leapSecond_ordinary : leapSecond.Ordinary := ⟨by decide, by decide⟩

/-- A work item of the leap second. -/
def Sample.lateItem : WorkItem := ⟨.ofNat 1, .label "_", leapSecond⟩

/-- The item asks for a review, without a label. -/
def Sample.lateRequest : Event := .reviewRequested none .fastPath (some lateItem.id)

/-- The leap second is written as the sixtieth, and the item and its request are read back. -/
theorem read_back_leapSecond :
    Sample.leapSecond.toText = "2016-12-31T23:59:60.500Z" ∧
    WorkItem.ofJson? Sample.lateItem.toJson = some Sample.lateItem ∧
    Envelope.ofJson? (Envelope.at Sample.lateRequest Sample.leapSecond).toJson =
      some (.at Sample.lateRequest Sample.leapSecond) := by
  obtain ⟨-, items, -, -, -, envelopes⟩ := persisted_read_back
  exact ⟨by decide, items Sample.lateItem Sample.leapSecond_ordinary,
    envelopes _ _ Sample.leapSecond_ordinary⟩

end Muster
