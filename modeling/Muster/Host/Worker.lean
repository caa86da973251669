import Muster.Host.Background

/-!
# The worker

The worker takes in one signal after the other and starts a job for each that calls for a review.
Once it is told to stop it takes in no more signals and waits for its jobs.
-/

namespace Muster.TimedHost

/-- The next signal for a worker, and the worker and site that have taken it in. -/
def workerSignal (h : TimedHost) (w : Worker) (nextTick : Nat) :
    Option (Signal × Worker × TimedHost) :=
  if nextTick ≤ h.clock then
    some (.tick, { w with phase := .waiting (nextTick + w.interval) }, h)
  else if w.requestsOpen && !w.ownsLine then some (.requestsClosed, w, h)
  else match (if w.requestsOpen then h.host.receive else none) with
    | some (r, host) => some (.request r, w, { h with host })
    | none =>
      match w.jobs.find? h.jobEnded with
      | some id =>
        some (.reviewEnded, { w with jobs := w.jobs.erase id }, { h with jobs := h.jobs.erase id })
      | none => (h.shutdown.news w.seen).map (·, { w with seen := h.shutdown.version }, h)

/-- Does what a worker does on a signal; gives the jobs it starts. -/
def workerActs (h : TimedHost) (w : Worker) : WorkerAction → Worker × List JobId × TimedHost
  | .reviewAll =>
    let (id, h) := h.addJob none
    ({ w with jobs := w.jobs ++ [id] }, [id], h)
  | .review r =>
    let (id, h) := h.addJob (some r)
    ({ w with jobs := w.jobs ++ [id] }, [id], h)
  | .ignoreRequests => ({ w with requestsOpen := false }, [], h)
  | .goOn => (w, [], h)
  | .stop => ({ w with phase := .draining }, [], h)

/-- A worker that has stopped ends when its jobs are over. With it goes the line. -/
def drainWorker (h : TimedHost) (w : Worker) : Worker × TimedHost :=
  let (ended, open_) := w.jobs.partition h.jobEnded
  let h := { h with jobs := ended.foldl Table.erase h.jobs }
  if open_.isEmpty then
    ({ w with phase := .finished, jobs := [] }, if w.ownsLine then
      h.mapHost fun host => host.withSite { host.site with line := host.site.line.close }
    else h)
  else ({ w with jobs := open_ }, h)

/-- Lets a worker take in up to `n` signals; gives the jobs it starts. -/
def runWorker : Nat → Worker → List JobId → TimedHost → Worker × List JobId × TimedHost
  | 0, w, started, h => (w, started, h)
  | n + 1, w, started, h =>
    match w.phase with
    | .starting => runWorker n { w with phase := .waiting (h.clock + w.interval) } started h
    | .waiting nextTick =>
      match h.workerSignal w nextTick with
      | none => (w, started, h)
      | some (signal, w, h) =>
        let (w, more, h) := h.workerActs w (.on signal)
        runWorker n w (started ++ more) h
    | .draining =>
      let (w, h) := h.drainWorker w
      (w, started, h)
    | .spinning | .finished => (w, started, h)

/-- As many signals as there can be for a worker at one time. -/
def workerBound (h : TimedHost) (w : Worker) : Nat :=
  h.host.site.line.waiting.length + w.jobs.length + 6

end Muster.TimedHost
