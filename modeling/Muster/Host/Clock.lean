import Muster.Host.LoadGenerator
import Muster.Host.Worker

/-!
# The clock

The loops and their jobs share one processor. Each runs until it has to wait, in the order in which
they became able to go on; a job whose review waits for a provider goes on after all others. Time
stands still while anything can go on and then moves to the next tick.
-/

namespace Muster

/-- Something that runs. -/
inductive Runner where
  | loop (index : Nat)
  | job (id : JobId)
deriving DecidableEq

namespace TimedHost

/-! ## Turns -/

/-- A turn of a loop or a job; gives what it starts. -/
def run (h : TimedHost) : Runner → List Runner × TimedHost
  | .job id => ([], h.runJob id)
  | .loop index =>
    match h.loops[index]? with
    | none => ([], h)
    | some (.worker w) =>
      let (w, started, h) := runWorker (h.workerBound w) w [] h
      (started.map .job, h.setLoop index (.worker w))
    | some (.generator g) =>
      let (g, h) := runGenerator 4 g h
      ([], h.setLoop index (.generator g))

/-- Whether a loop has something to do. -/
def loopReady (h : TimedHost) : BackgroundLoop → Bool
  | .worker w =>
    match w.phase with
    | .starting => true
    | .waiting nextTick => (h.workerSignal w nextTick).isSome
    | .draining => w.jobs.all h.jobEnded
    | .spinning | .finished => false
  | .generator g =>
    match g.phase with
    | .starting => true
    | .waiting nextTick => nextTick ≤ h.clock || (h.shutdown.news g.seen).isSome
    | .draining | .spinning | .finished => false

/-- The loops that have something to do and the jobs that got a lock. -/
def ready (h : TimedHost) : List Runner :=
  ((List.range h.loops.length).filter fun i => (h.loops[i]?).any h.loopReady).map .loop ++
    (h.jobs.keys.filter h.jobWoken).map .job

/-- Gives turns until nothing can go on, at most `n`. `later` holds the jobs that wait for a
provider, the last one first; they go on when no other can. -/
def settle : Nat → List Runner → List Runner → TimedHost → TimedHost
  | 0, _, _, h => h
  | _ + 1, [], [], h => h
  | n + 1, [], later, h => settle n later [] h
  | n + 1, r :: rest, later, h =>
    let (started, h) := h.run r
    let later := match r with
      | .job id => if h.jobYields id then r :: later else later
      | .loop _ => later
    let line := rest ++ started
    let woken := h.ready.filter fun x => !line.contains x && !later.contains x
    settle n (line ++ woken) later h

/-- More turns than can be taken before time moves. -/
def turnBound (h : TimedHost) : Nat :=
  let work := h.host.site.queue.size + h.host.site.line.waiting.length + h.loops.length +
    h.jobs.size + h.host.system.tasks.size + 4
  4 * work * work * (h.host.requestBound + 4)

/-! ## Time -/

/-- The time of the next tick. -/
def nextTick? (h : TimedHost) : Option Nat :=
  (h.loops.filterMap BackgroundLoop.nextTick?).min?

/-- A loop is stuck, so that time does not move any more. -/
def stuck (h : TimedHost) : Bool := h.loops.any fun l => l.phase == .spinning

/-- Lets time move to `target`, over up to `n` ticks. -/
def runUntil (target : Nat) : Nat → TimedHost → TimedHost
  | 0, h => h
  | n + 1, h =>
    let h := settle h.turnBound h.ready [] h
    if h.stuck then h
    else match h.nextTick? with
      | none => { h with clock := target }
      | some tick =>
        if tick ≤ target then runUntil target n { h with clock := max tick h.clock }
        else { h with clock := target }

/-- Lets `ms` milliseconds pass. If there are none, nothing moves. -/
def advance (h : TimedHost) (ms : Nat) : TimedHost :=
  if ms = 0 then h else runUntil (h.clock + ms) ((ms + 1) * (h.loops.length + 1)) h

end TimedHost

end Muster
