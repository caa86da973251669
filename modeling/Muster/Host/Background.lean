import Muster.Host.Basic
import Muster.Host.Signal

/-!
# Background loops

Two loops run beside the host. The worker reviews requested classes as the requests come and all
classes with work at a fixed interval; each review is a job of its own. The load generator submits
one item at each of its ticks. Here is what they and their jobs consist of; what they do has modules
of its own.
-/

namespace Muster

abbrev JobId := Nat

/-- Reviews that the worker started together. -/
structure Job where
  /-- The class that was requested, or every class with work. -/
  scope : Option ResourceClass
  /-- The tasks that review, once the job has begun. -/
  tasks : Option (List TaskId) := none
  ended : Bool := false

/-- Where a loop stands. -/
inductive LoopPhase where
  | starting
  /-- It waits, among other things, for the clock to show this time. -/
  | waiting (nextTick : Nat)
  /-- It has stopped and waits for its jobs. -/
  | draining
  /-- It is told the same thing for ever and does nothing about it. -/
  | spinning
  | finished
deriving DecidableEq, Repr

/-- The worker. -/
structure Worker where
  /-- Milliseconds between two reviews of all classes. -/
  interval : Nat
  phase : LoopPhase := .starting
  /-- Its requests come from the line of the site. -/
  ownsLine : Bool
  requestsOpen : Bool := true
  /-- How many settings of the shutdown flag it has seen. -/
  seen : Nat := 0
  jobs : List JobId := []

/-- The load generator. -/
structure LoadGenerator where
  /-- Milliseconds between two items. -/
  every : Nat
  classes : List ResourceClass
  phase : LoopPhase := .starting
  seen : Nat := 0
  /-- How many items it has submitted. -/
  arrivals : Nat := 0

/-- A loop in the background. -/
inductive BackgroundLoop where
  | worker (w : Worker)
  | generator (g : LoadGenerator)

def BackgroundLoop.phase : BackgroundLoop → LoopPhase
  | worker w => w.phase
  | generator g => g.phase

/-- The time of the next tick of a loop. -/
def BackgroundLoop.nextTick? (l : BackgroundLoop) : Option Nat :=
  match l.phase with
  | .waiting nextTick => some nextTick
  | _ => none

/-- A host with background loops and a clock. -/
structure TimedHost where
  host : Host
  /-- Milliseconds since the start. -/
  clock : Nat := 0
  /-- The instant of the start, in milliseconds since 1970. -/
  origin : Int := 0
  loops : List BackgroundLoop := []
  jobs : Table JobId Job := ∅
  nextJob : JobId := 0
  /-- Items that the load generators have submitted. -/
  arrivals : Nat := 0
  shutdown : ShutdownFlag := {}

namespace TimedHost

/-- Changes the host. -/
def mapHost (h : TimedHost) (f : Host → Host) : TimedHost := { h with host := f h.host }

/-- Puts a loop into the place of one. -/
def setLoop (h : TimedHost) (index : Nat) (l : BackgroundLoop) : TimedHost :=
  { h with loops := h.loops.set index l }

/-- Adds a loop, which starts when time moves next. -/
def addLoop (h : TimedHost) (l : BackgroundLoop) : TimedHost := { h with loops := h.loops ++ [l] }

/-- Which loops have come to their end. -/
def finished (h : TimedHost) : List Bool := h.loops.map fun l => l.phase == .finished

/-- Whether a worker has the line of the site. -/
def lineTaken (h : TimedHost) : Bool :=
  h.loops.any fun
    | .worker w => w.ownsLine
    | .generator _ => false

/-! ## Jobs -/

/-- A new job for the worker. -/
def addJob (h : TimedHost) (scope : Option ResourceClass) : JobId × TimedHost :=
  (h.nextJob, { h with jobs := h.jobs.insert h.nextJob { scope }, nextJob := h.nextJob + 1 })

/-- Whether a job is over. A job that is not known is. -/
def jobEnded (h : TimedHost) (id : JobId) : Bool := (h.jobs.find? id).all (·.ended)

/-- A turn of a job: a turn for each of its tasks. -/
def runJob (h : TimedHost) (id : JobId) : TimedHost :=
  match h.jobs.find? id with
  | none => h
  | some job =>
    let (tasks, host) := match job.tasks with
      | some tasks => (tasks, h.host)
      | none => h.host.spawn (match job.scope with
        | some r => [r]
        | none => h.host.site.queue.pendingClasses)
    let host := (tasks.filter fun t => (host.system.outcome? t).isNone).foldl Host.turn host
    if tasks.all fun t => (host.system.outcome? t).isSome then
      { h with
        host := (host.collect tasks).2
        jobs := h.jobs.insert id { job with tasks := some [], ended := true } }
    else { h with host, jobs := h.jobs.insert id { job with tasks := some tasks } }

/-- Whether a review of a job waits for a provider. -/
def jobYields (h : TimedHost) (id : JobId) : Bool :=
  ((h.jobs.find? id).bind (·.tasks)).any fun tasks =>
    tasks.any fun t => (h.host.system.request? t).isSome

/-- Whether a task holds the lock it stood in line for. -/
def granted (h : TimedHost) (t : TaskId) : Bool :=
  match h.host.system.tasks.find? t with
  | some ⟨_, .inLine lock⟩ => h.host.system.locks.holds lock t
  | _ => false

/-- Whether a job has got a lock it waited for. -/
def jobWoken (h : TimedHost) (id : JobId) : Bool :=
  ((h.jobs.find? id).bind (·.tasks)).any fun tasks => tasks.any h.granted

end TimedHost

end Muster
