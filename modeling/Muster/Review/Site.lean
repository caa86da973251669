import Muster.Limiter
import Muster.Provider
import Muster.Queue
import Muster.Review.Requests

/-!
# The site

Reviews, triggers and the queue work on one site: the queue, the limiter, the line of requests, and
a record of what providers and the tracker were asked and of the events that were reported. What
does not change while the site runs is its wiring.

A work item that becomes ready is announced to the trigger, which asks for a review as soon as it
finds a provider that could help.
-/

namespace Muster

/-- Where events go. Only a recording sink keeps them; a failing one loses them. -/
inductive Sink where
  | recording
  | failing
  | silent
deriving DecidableEq, Repr

/-- How links are reported to the host. The answer may depend on the links reported before. -/
abbrev Tracker := List Link → Queue → Link → Except TrackError Queue

namespace Tracker

/-- The queue keeps the links itself. -/
def queue : Tracker := fun _ q link => q.track link

/-- No link gets through. -/
def failing : Tracker := fun _ _ link => .error (.unknownItem link.item)

end Tracker

/-- Who listens to items that become ready. -/
structure Trigger where
  enabled : Bool
  providers : Registry
  filter : Filter

/-- What became of the announcement of a ready item. -/
inductive TriggerOutcome where
  | disabled
  | noEligibleProvider
  | requested (outcome : RequestOutcome)
deriving DecidableEq, Repr

/-- What is fixed about a site. -/
structure Wiring where
  /-- Ready items may ask for reviews. -/
  fastPath : Bool
  /-- The listener of the queue, if it has one. -/
  trigger : Option Trigger
  tracker : Tracker := .queue
  sink : Sink := .recording

/-- What reviews, triggers and the queue share. -/
structure Site (L : Type) where
  queue : Queue := .empty
  limiter : L
  line : RequestLine
  /-- What providers were asked, oldest first. -/
  calls : List Call := []
  /-- The links that were reported to the tracker, oldest first. -/
  links : List Link := []
  /-- The events that were kept, oldest first. -/
  journal : List Event := []
  /-- The capacity that was created, oldest first. -/
  created : List PlannedCapacity := []
  /-- The number of reviews that have begun. -/
  reviews : Nat := 0

namespace Site

variable {L : Type}

/-! ## Events and providers -/

/-- Reports an event. -/
def emit (w : Wiring) (e : Event) (s : Site L) : Site L :=
  match w.sink with
  | .recording => { s with journal := s.journal ++ [e] }
  | .failing | .silent => s

/-- Asks a provider whether it has headroom. -/
def askHeadroom (b : Behaviour) (review : Option ReviewId) (p : Provider) (r : ResourceClass)
    (planned : Count) (s : Site L) : Except ProviderError Bool × Site L :=
  let answer := b.headroom s.calls p r planned
  (answer, { s with calls := s.calls ++ [⟨review, p.id, r, .headroom planned answer⟩] })

/-- Puts a request to a provider. Without an answer, the provider will give it later. -/
def askCapacity (b : Behaviour) (review : Option ReviewId) (request : Request) (s : Site L) :
    Option Answer × Site L :=
  (b.respond s.calls s.created.length request, { s with
    calls := s.calls ++ [⟨review, request.provider.id, request.resource, .provision request.units⟩] })

/-- Reports a link to the tracker, whose failures are ignored. -/
def track (w : Wiring) (s : Site L) (link : Link) : Site L :=
  { s with
    queue := match w.tracker s.links s.queue link with
      | .ok q => q
      | .error _ => s.queue
    links := s.links ++ [link] }

/-! ## Requests and triggers -/

/-- Asks for a review of a class. -/
def request (w : Wiring) (r : ResourceClass) (source : ReviewSource) (item : Option WorkItemId)
    (s : Site L) : RequestOutcome × Site L :=
  let (outcome, event, line) := s.line.request w.fastPath r source item
  let s := { s with line }
  (outcome, match event with
    | some e => s.emit w e
    | none => s)

/-- Asks for a review on behalf of a ready item, at the first provider that could help. -/
def announceTo (w : Wiring) (b : Behaviour) (filter : Filter) (item : WorkItem) :
    Registry → Site L → TriggerOutcome × Site L
  | [], s => (.noEligibleProvider, s)
  | p :: rest, s =>
    if p.serves item.resource && filter p item.resource then
      match s.askHeadroom b none p item.resource 0 with
      | (.ok true, s) =>
        let (outcome, s) := s.request w item.resource .fastPath (some item.id)
        (.requested outcome, s)
      | (_, s) => announceTo w b filter item rest s
    else announceTo w b filter item rest s

/-- Tells a trigger that an item is ready. -/
def announce (w : Wiring) (b : Behaviour) (t : Trigger) (item : WorkItem) (s : Site L) :
    TriggerOutcome × Site L :=
  if t.enabled then s.announceTo w b t.filter item t.providers else (.disabled, s)

/-- Tells the listener of the queue, if there is one. -/
def notify (w : Wiring) (b : Behaviour) (item : WorkItem) (s : Site L) : Site L :=
  match w.trigger with
  | some t => (s.announce w b t item).2
  | none => s

/-! ## Queue operations -/

/-- Lets an item run and announces it. -/
def makeBuildable (w : Wiring) (b : Behaviour) (id : WorkItemId) (s : Site L) :
    Except QueueError Unit × Site L :=
  match s.queue.makeBuildable id with
  | .error e => (.error e, s)
  | .ok (queue, ready) =>
    let s := { s with queue }
    (.ok (), match ready with
      | some item => s.notify w b item
      | none => s)

/-- Adds an item that cannot run yet. -/
def submit (item : WorkItem) (s : Site L) : Site L := { s with queue := s.queue.submit item }

/-- Adds an item that can run. -/
def submitBuildable (w : Wiring) (b : Behaviour) (item : WorkItem) (s : Site L) : Site L :=
  ((s.submit item).makeBuildable w b item.id).2

/-- Removes an item that will not run, and says whether there was one. -/
def cancel (id : WorkItemId) (s : Site L) : Bool × Site L :=
  match s.queue.cancel id with
  | some queue => (true, { s with queue })
  | none => (false, s)

/-- Runs an item. -/
def assign (id : WorkItemId) (s : Site L) : Except QueueError Unit × Site L :=
  match s.queue.assign id with
  | .ok queue => (.ok (), { s with queue })
  | .error e => (.error e, s)

/-- Brings capacity online. -/
def online (id : PlannedId) (s : Site L) : Except QueueError Unit × Site L :=
  match s.queue.online id with
  | .ok queue => (.ok (), { s with queue })
  | .error e => (.error e, s)

/-! ## Running ready work -/

/-- Brings one capacity online and retires it. -/
def retire [Limiter L] (s : Site L) (id : PlannedId) : Site L :=
  match s.online id with
  | (.ok _, s) => { s with limiter := Limiter.release s.limiter id }
  | (.error _, s) => s

/-- Runs items until one cannot run. -/
def assignAll : List WorkItemId → Site L → Site L
  | [], s => s
  | id :: rest, s =>
    match s.assign id with
    | (.ok _, s) => assignAll rest s
    | (.error _, s) => s

/-- Brings all capacity of a class online and runs the items in line on it. Each unit runs one item
and is retired. -/
def runReadyWork [Limiter L] (r : ResourceClass) (s : Site L) : Site L :=
  let s := (s.queue.inFlightIds r).foldl retire s
  assignAll ((s.queue.snapshot r).items.map (·.item.id)) s

end Site

end Muster
