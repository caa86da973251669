import Muster.Host.Background

/-!
# The load generator

At each tick the load generator runs what is ready and submits one item, for one class after the
other.
-/

namespace Muster.TimedHost

/-- Runs what is ready in each class and submits an item of the next class. -/
def arrive (h : TimedHost) (g : LoadGenerator) : LoadGenerator × TimedHost :=
  let host := h.host
  let s := g.classes.foldl (fun s r => s.runReadyWork r) host.site
  match g.classes[g.arrivals % g.classes.length]? with
  | none => (g, { h with host := host.withSite s })
  | some r =>
    let item : WorkItem :=
      ⟨Id.fresh h.arrivals, r, Instant.ofMilliseconds (h.origin + h.clock)⟩
    let s := s.submitBuildable host.wiring host.behaviour item
    ({ g with arrivals := g.arrivals + 1 },
      { h with host := host.withSite s, arrivals := h.arrivals + 1 })

/-- A turn of a load generator. Without classes it ends at once. -/
def runGenerator : Nat → LoadGenerator → TimedHost → LoadGenerator × TimedHost
  | 0, g, h => (g, h)
  | n + 1, g, h =>
    match g.phase with
    | .starting =>
      if g.classes.isEmpty then ({ g with phase := .finished }, h)
      else runGenerator n { g with phase := .waiting h.clock } h
    | .waiting nextTick =>
      if nextTick ≤ h.clock then
        let (g, h) := h.arrive g
        runGenerator n { g with phase := .waiting (nextTick + g.every) } h
      else match h.shutdown.news g.seen with
        | none => (g, h)
        | some signal =>
          let g := { g with seen := h.shutdown.version }
          match GeneratorAction.on h.shutdown.value signal, signal with
          | .stop, _ => ({ g with phase := .finished }, h)
          | _, .senderGone => ({ g with phase := .spinning }, h)
          | _, _ => runGenerator n g h
    | .draining | .spinning | .finished => (g, h)

end Muster.TimedHost
