import Muster.Event.Json
import Muster.Host.Assembly
import Std.Time.DateTime.Timestamp

/-!
# The command line

Reads the settings from the environment and runs the configured host in real time. Every event is
printed as one line when it happens, unless the log level asks for silence.
-/

namespace Muster

/-- The variables that settings are read from. -/
def variableNames : List String :=
  ["NODELAY_DISABLE_FAST_PROVISIONING", "NODELAY_REVIEW_INTERVAL_SECS",
    "NODELAY_REVIEW_QUEUE_CAPACITY", "NODELAY_LOG_LEVEL", "NODELAY_STRATEGY_KIND",
    "NODELAY_PROVIDERS", "NODELAY_SIMULATE_ARRIVAL_MS"]

/-- The settings in the environment. -/
def readConfig : IO (Except ConfigError Config) := do
  let given ← variableNames.filterMapM fun variableName => do
    return (← IO.getEnv variableName).map (variableName, ·)
  return Config.ofVariables fun variableName => given.lookup variableName

/-- Events are worth a line at this log level. -/
def showsEvents (logLevel : String) : Bool :=
  not (["off", "error", "warn"].contains logLevel.toLower)

/-- The time of day. -/
def now : IO Instant := do
  return .ofMilliseconds (← Std.Time.Timestamp.now).toMillisecondsSinceUnixEpoch.val

/-- Keeps a host in step with a clock that showed `start` when the host was made. -/
partial def serve (shows : Bool) (start : Nat) (h : TimedHost) : IO Unit := do
  IO.sleep 5
  let h := h.advance ((← IO.monoMsNow) - start - h.clock)
  let journal := h.host.site.journal
  if shows ∧ !journal.isEmpty then
    let time ← now
    let output ← IO.getStdout
    for event in journal do
      output.putStrLn (Envelope.at event time).toLine
    output.flush
  serve shows start (h.mapHost fun host => host.withSite { host.site with journal := [] })

/-- Runs the configured host until it is interrupted. -/
def run : IO UInt32 := do
  match ← readConfig with
  | .error e =>
    IO.eprintln ("Error: " ++ e.message)
    return 1
  | .ok config =>
    match config.timedHost? (← now).milliseconds with
    | none =>
      IO.eprintln ("Error: a line of reviews holds at most " ++ toString RequestLine.longest)
      return 101
    | some host =>
      serve (showsEvents config.logLevel) (← IO.monoMsNow) host
      return 0

end Muster

def main : IO UInt32 := Muster.run
