import Muster.Review.Requests

/-!
# Signals

Two loops run in the background: the worker, which reviews, and the load generator, which submits
work. Both wait for signals, and what they do about one is said here. A shutdown flag stops them.
-/

namespace Muster

/-- What a loop can be told. -/
inductive Signal where
  /-- Its timer has come round. -/
  | tick
  | request (request : ReviewRequest)
  /-- No request will come any more. -/
  | requestsClosed
  /-- A review that it started is over. -/
  | reviewEnded
  /-- The shutdown flag was set to a value. -/
  | shutdown (value : Bool)
  /-- The shutdown flag will not be set any more. -/
  | senderGone
deriving DecidableEq

/-- What the worker does. -/
inductive WorkerAction where
  | reviewAll
  | review (resource : ResourceClass)
  | ignoreRequests
  | goOn
  | stop
deriving DecidableEq

/-- The worker reviews all classes at every tick and each class that is requested. -/
def WorkerAction.on : Signal → WorkerAction
  | .tick => reviewAll
  | .request r => review r.resource
  | .requestsClosed => ignoreRequests
  | .reviewEnded => goOn
  | .shutdown true => stop
  | .shutdown false => goOn
  | .senderGone => stop

/-- What the load generator does. -/
inductive GeneratorAction where
  | arrive
  | goOn
  | stop
deriving DecidableEq

/-- The load generator submits work at every tick. Whenever something happens to the shutdown flag
it looks at the flag, whose value is `flag`. -/
def GeneratorAction.on (flag : Bool) : Signal → GeneratorAction
  | .tick => arrive
  | .shutdown value => if value then stop else goOn
  | .senderGone => if flag then stop else goOn
  | .request _ | .requestsClosed | .reviewEnded => goOn

/-- A flag that is set from outside. -/
structure ShutdownFlag where
  value : Bool := false
  /-- How often it was set. -/
  version : Nat := 0
  /-- It will not be set any more. -/
  senderGone : Bool := false
deriving DecidableEq, Repr

namespace ShutdownFlag

/-- Sets the flag. -/
def send (f : ShutdownFlag) (value : Bool) : ShutdownFlag :=
  { f with value, version := f.version + 1 }

/-- The news for a loop that has seen the first `seen` settings: the latest setting, or that there
will be no more. -/
def news (f : ShutdownFlag) (seen : Nat) : Option Signal :=
  if f.version ≠ seen then some (.shutdown f.value)
  else if f.senderGone then some .senderGone
  else none

end ShutdownFlag

end Muster
