import Muster.Event
import Muster.Json.Text
import Muster.Model.Json

/-!
# Events in JSON

An event is an object whose field `type` names the kind; an array that begins with that name and
goes on with the fields in their order is read as well. An absent label is written as null, an
absent work item, strategy or review is left out.
-/

namespace Muster

namespace ReviewSource

def toJson (s : ReviewSource) : Json := .string s.display

/-- The source with this name. -/
def ofName? : String → Option ReviewSource
  | "fast_path" => some fastPath
  | "periodic" => some periodic
  | _ => none

/-- A name alone, or as the only field of an object with null in it. -/
def ofJson? (j : Json) : Option ReviewSource := do
  match ← j.variant? with
  | (name, none) | (name, some .null) => ofName? name
  | _ => none

/-- Inside an event an empty object is as good as null. -/
def ofEventField? (j : Json) : Option ReviewSource := do
  match ← j.variant? with
  | (name, some (.object [])) => ofName? name
  | _ => ofJson? j

end ReviewSource

namespace Event

/-- The name of the kind of event in the field `type`. -/
def tag : Event → String
  | reviewRequested .. => "review_requested"
  | reviewCoalesced .. => "review_coalesced"
  | reviewCompleted .. => "review_completed"
  | provisionRequested .. => "provision_requested"
  | provisionFailed .. => "provision_failed"
  | strategyFailed .. => "strategy_failed"

/-- A field that is left out if it has no value. -/
def present {α : Type} (name : String) (f : α → Json) : Option α → List (String × Json)
  | none => []
  | some a => [(name, f a)]

def labelJson (label : Option String) : String × Json := ("label", .ofOption .string label)

/-- The fields after the tag. -/
def fields : Event → List (String × Json)
  | reviewRequested label source workItem =>
    labelJson label :: ("source", source.toJson) :: present "work_item_id" Id.toJson workItem
  | reviewCoalesced label => [labelJson label]
  | reviewCompleted review label strategiesRun unitsRequested unsatisfiedDemand completedBy =>
    ("review_id", review.toJson) :: labelJson label ::
      ("strategies_run", .ofCount strategiesRun) :: ("units_requested", .ofCount unitsRequested) ::
      ("unsatisfied_demand", .ofCount unsatisfiedDemand) ::
      present "completed_by" .string completedBy
  | provisionRequested review provider label units planned =>
    [("review_id", review.toJson), ("provider_id", provider.toJson), labelJson label,
      ("units", .ofCount units), ("planned", .array (planned.map Id.toJson))]
  | provisionFailed review provider label reason =>
    [("review_id", review.toJson), ("provider_id", provider.toJson), labelJson label,
      ("reason", .string reason)]
  | strategyFailed review strategy reason =>
    [("review_id", review.toJson), ("strategy", .string strategy), ("reason", .string reason)]

def toJson (e : Event) : Json := .object (("type", .string e.tag) :: e.fields)

/-- Reads the fields of an event of the kind that `tag` names. -/
def ofTagged? (tag : String) (body : Json) : Option Event := do
  match tag with
  | "review_requested" =>
    match ← body.record? ["label", "source", "work_item_id"] with
    | [label, some source, workItem] =>
      some (.reviewRequested (← Json.optional? Json.asText? label)
        (← ReviewSource.ofEventField? source) (← Json.optional? (Id.ofJson? _) workItem))
    | _ => none
  | "review_coalesced" =>
    match ← body.record? ["label"] with
    | [label] => some (.reviewCoalesced (← Json.optional? Json.asText? label))
    | _ => none
  | "review_completed" =>
    match ← body.record? ["review_id", "label", "strategies_run", "units_requested",
        "unsatisfied_demand", "completed_by"] with
    | [some review, label, some strategiesRun, some unitsRequested, some unsatisfiedDemand,
        completedBy] =>
      some (.reviewCompleted (← Id.ofJson? _ review) (← Json.optional? Json.asText? label)
        (← strategiesRun.asCount?) (← unitsRequested.asCount?) (← unsatisfiedDemand.asCount?)
        (← Json.optional? Json.asText? completedBy))
    | _ => none
  | "provision_requested" =>
    match ← body.record? ["review_id", "provider_id", "label", "units", "planned"] with
    | [some review, some provider, label, some units, some planned] =>
      some (.provisionRequested (← Id.ofJson? _ review) (← Id.ofJson? _ provider)
        (← Json.optional? Json.asText? label) (← units.asCount?)
        (← planned.asList? (Id.ofJson? _)))
    | _ => none
  | "provision_failed" =>
    match ← body.record? ["review_id", "provider_id", "label", "reason"] with
    | [some review, some provider, label, some reason] =>
      some (.provisionFailed (← Id.ofJson? _ review) (← Id.ofJson? _ provider)
        (← Json.optional? Json.asText? label) (← reason.asText?))
    | _ => none
  | "strategy_failed" =>
    match ← body.record? ["review_id", "strategy", "reason"] with
    | [some review, some strategy, some reason] =>
      some (.strategyFailed (← Id.ofJson? _ review) (← strategy.asText?) (← reason.asText?))
    | _ => none
  | _ => none

def ofJson? : Json → Option Event
  | .object fields => do ofTagged? (← (← Json.field? "type" fields).asText?) (.object fields)
  | .array (tag :: rest) => do ofTagged? (← tag.asText?) (.array rest)
  | _ => none

end Event

namespace Envelope

def toJson (e : Envelope) : Json :=
  .object (("occurred_at", e.occurredAt.toJson) :: ("event_type", .string e.typeName) ::
    Event.present "review_id" Id.toJson e.review ++ [("payload", e.payload.toJson)])

/-- The envelope as one line of text. -/
def toLine (e : Envelope) : String := e.toJson.toText

/-- Reads an envelope. The name of the kind of event is kept as it was written. -/
def ofJson? (j : Json) : Option Envelope := do
  match ← j.record? ["occurred_at", "event_type", "review_id", "payload"] with
  | [some occurredAt, some typeName, review, some payload] =>
    some ⟨← Instant.ofJson? occurredAt, ← typeName.asText?,
      ← Json.optional? (Id.ofJson? _) review, ← Event.ofJson? payload⟩
  | _ => none

end Envelope

end Muster
