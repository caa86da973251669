import Muster.Review.Scripted
import Muster.Review.System

/-!
# The host

A host is a site with simulated providers, whose reviews are carried out here. Plain providers
answer a request the next time their review gets its turn. Reviews that run side by side get their
turns in rounds, in the order in which they were started.
-/

namespace Muster

/-- A running site with its providers. -/
structure Host where
  wiring : Wiring
  chain : Chain HostLimiter
  providers : List SimulatedProvider
  system : System HostLimiter

/-- The sums over a pass over all classes with work. -/
structure ReviewStats where
  classesReviewed : Count := 0
  unitsRequested : Count := 0
  unsatisfied : Count := 0
deriving DecidableEq, Repr, Inhabited

/-- Adds the result of one review. -/
def ReviewStats.add (s : ReviewStats) (o : Outcome) : ReviewStats :=
  ⟨s.classesReviewed + 1, s.unitsRequested.satAdd o.unitsRequested,
    s.unsatisfied.satAdd o.unsatisfied⟩

namespace Host

def behaviour (h : Host) : Behaviour := SimulatedProvider.behaviour h.providers

def site (h : Host) : Site HostLimiter := h.system.site

/-- The host with another site. -/
def withSite (h : Host) (site : Site HostLimiter) : Host := { h with system.site := site }

/-- Changes the site and says what came of it. -/
def onSite {α : Type} (h : Host) (f : Site HostLimiter → α × Site HostLimiter) : α × Host :=
  let (a, site) := f h.site
  (a, h.withSite site)

/-! ## Turns -/

/-- The answer that a plain provider gives now. -/
def deliver (h : Host) (request : Request) : Answer :=
  Conduct.deliver h.site.created.length request

/-- One turn of a task: it gets the answer it waits for and goes on as far as it can. -/
def turn (h : Host) (t : TaskId) : Host :=
  let b := h.behaviour
  let system := match h.system.request? t with
    | none => h.system
    | some request => (h.system.answer h.wiring b t (h.deliver request)).getD h.system
  { h with system := system.advance h.wiring b h.chain t }

/-- Gives every task that is not done a turn, up to `n` times. -/
def rounds : Nat → List TaskId → Host → Host
  | 0, _, h => h
  | n + 1, tasks, h =>
    match tasks.filter fun t => (h.system.outcome? t).isNone with
    | [] => h
    | open_ => rounds n tasks (open_.foldl turn h)

/-- The most requests that a review of one class can make. -/
def requestBound (h : Host) : Nat :=
  h.chain.foldr (fun strategy n =>
    match strategy with
    | .engine e => e.providers.length + n
    | _ => n) 0

/-- Starts a task for each class. -/
def spawn (h : Host) (resources : List ResourceClass) : List TaskId × Host :=
  resources.foldl (fun (tasks, h) r =>
    let (t, system) := h.system.spawn r
    (tasks ++ [t], { h with system })) ([], h)

/-- The results of tasks that are done, which are let go. -/
def collect (h : Host) (tasks : List TaskId) : List Outcome × Host :=
  (tasks.filterMap h.system.outcome?, { h with system := tasks.foldl System.forget h.system })

/-! ## Reviews -/

/-- Reviews classes side by side. Each round answers a request or ends a review, so there are enough
rounds for all of them. -/
def reviewConcurrently (h : Host) (resources : List ResourceClass) : List Outcome × Host :=
  let (tasks, h) := h.spawn resources
  (rounds (tasks.length * (h.requestBound + 1) + 1) tasks h).collect tasks

/-- Reviews every class with work. -/
def reviewAll (h : Host) : ReviewStats × Host :=
  let (outcomes, h) := h.reviewConcurrently h.site.queue.pendingClasses
  (outcomes.foldl ReviewStats.add {}, h)

/-- Takes a request off the line. -/
def receive (h : Host) : Option (ReviewRequest × Host) :=
  h.site.line.receive.map fun (r, line) => (r, h.withSite { h.site with line })

/-- Reviews requested classes one after the other, at most `n`. -/
def drain : Nat → Host → List Outcome × Host
  | 0, h => ([], h)
  | n + 1, h =>
    match h.receive with
    | none => ([], h)
    | some (r, h) =>
      let (outcomes, h) := h.reviewConcurrently [r.resource]
      let (rest, h) := drain n h
      (outcomes ++ rest, h)

/-! ## Single parts -/

/-- Answers requests of a chain until it is finished, at most `n` of them. -/
def settleChain (w : Wiring) (b : Behaviour) :
    Nat → ChainProgress HostLimiter → Site HostLimiter × ReviewState × Tally
  | _, .finished s st t => (s, st, t)
  | 0, .waiting s st cursor => (s, st, cursor.tally)
  | n + 1, .waiting s st cursor =>
    settleChain w b n
      (cursor.resume w b (Conduct.deliver s.created.length cursor.pause.request) s st)

/-- Runs the chain on a state. -/
def runChain (h : Host) (st : ReviewState) : Tally × ReviewState × Host :=
  let bound := h.requestBound * st.classes.size
  let (s, st, t) := settleChain h.wiring h.behaviour bound
    (h.chain.run h.wiring h.behaviour {} h.site st)
  (t, st, h.withSite s)

/-- Puts a request to a provider and waits for the answer. -/
def provision (h : Host) (request : Request) : Answer × Host :=
  let (answer, s) := h.site.askCapacity h.behaviour none request
  let answer := answer.getD (h.deliver request)
  let created := match answer with
    | .ok planned => s.created ++ planned
    | .error _ => s.created
  (answer, h.withSite { s with created })

/-- Brings all capacity of a class online and says how much there was. -/
def onlineAll (h : Host) (r : ResourceClass) : Nat × Host :=
  let ids := h.site.queue.inFlightIds r
  (ids.length, h.withSite (ids.foldl (fun s id => (s.online id).2) h.site))

/-- Changes whether a plain provider has headroom. -/
def setHeadroom (h : Host) (id : ProviderId) (headroom : Bool) : Host :=
  { h with providers := h.providers.map fun s =>
      if s.provider.id = id then
        match s.conduct with
        | .plain fault _ => { s with conduct := .plain fault headroom }
        | .scripted _ => s
      else s }

end Host

end Muster
