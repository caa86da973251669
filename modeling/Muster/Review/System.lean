import Muster.Review.ClassLocks
import Muster.Review.Cycle

/-!
# Reviews side by side

Any number of tasks review classes of one site. A task gets a handle on the lock of its class,
waits until it holds the lock, reviews, lets the lock go and gives the handle back. Tasks take turns
between these steps, and also whenever a review waits for a provider; within a step a task is
alone. Who takes the next step is left open here.
-/

namespace Muster

/-- Where a task stands. -/
inductive Phase (L : Type) where
  /-- It has not started. -/
  | called
  /-- It has a handle on the lock of its class. -/
  | handle (lock : LockId)
  /-- It stands in the line of the lock. -/
  | inLine (lock : LockId)
  /-- It holds the lock and has not begun its review. -/
  | entered (lock : LockId)
  /-- Its review waits for a provider. -/
  | waiting (lock : LockId) (state : ReviewState) (cursor : Cursor L)
  /-- Its review is over and it still holds the lock. -/
  | reviewed (lock : LockId) (outcome : Outcome)
  /-- It has let the lock go and still has the handle. -/
  | unlocked (lock : LockId) (outcome : Outcome)
  | done (outcome : Outcome)

/-- A task that reviews a class. -/
structure Task (L : Type) where
  resource : ResourceClass
  phase : Phase L := .called

/-- The request that a task waits for. -/
def Task.request? {L : Type} (t : Task L) : Option Request :=
  match t.phase with
  | .waiting _ _ cursor => some cursor.pause.request
  | _ => none

/-- The result of a task that is done. -/
def Task.outcome? {L : Type} (t : Task L) : Option Outcome :=
  match t.phase with
  | .done outcome => some outcome
  | _ => none

/-- A site and the tasks that work on it. -/
structure System (L : Type) where
  site : Site L
  locks : ClassLocks := .empty
  tasks : Table TaskId (Task L) := ∅
  /-- The next task to be made. -/
  next : TaskId := 0

namespace System

variable {L : Type}

/-- A new task for a class. -/
def spawn (sys : System L) (r : ResourceClass) : TaskId × System L :=
  (sys.next, { sys with tasks := sys.tasks.insert sys.next { resource := r }, next := sys.next + 1 })

/-- Puts a task into a phase. -/
def setPhase (sys : System L) (t : TaskId) (phase : Phase L) : System L :=
  { sys with tasks := sys.tasks.modify t fun task => { task with phase } }

/-- Lets go of a task that is done. -/
def forget (sys : System L) (t : TaskId) : System L := { sys with tasks := sys.tasks.erase t }

/-- The result of a task that is done. -/
def outcome? (sys : System L) (t : TaskId) : Option Outcome := (sys.tasks.find? t).bind (·.outcome?)

/-- The request that a task waits for. -/
def request? (sys : System L) (t : TaskId) : Option Request := (sys.tasks.find? t).bind (·.request?)

variable [Limiter L]

/-- Keeps a task's lock through its review. -/
def afterReview (sys : System L) (t : TaskId) (lock : LockId) : Site L × Cycle L → System L
  | (site, .waiting state cursor) => { sys with site }.setPhase t (.waiting lock state cursor)
  | (site, .finished outcome) => { sys with site }.setPhase t (.reviewed lock outcome)

/-- The next step of a task, if it can take one by itself. -/
def step (w : Wiring) (b : Behaviour) (c : Chain L) (t : TaskId) (sys : System L) :
    Option (System L) :=
  match sys.tasks.find? t with
  | none => none
  | some task =>
    match task.phase with
    | .called =>
      let (lock, locks) := sys.locks.get task.resource
      some ({ sys with locks }.setPhase t (.handle lock))
    | .handle lock =>
      let sys := { sys with locks := sys.locks.arrive lock t }
      some (sys.setPhase t (if sys.locks.holds lock t then .entered lock else .inLine lock))
    | .inLine lock =>
      if sys.locks.holds lock t then some (sys.setPhase t (.entered lock)) else none
    | .entered lock => some (sys.afterReview t lock (Cycle.begin w b c task.resource sys.site))
    | .waiting .. => none
    | .reviewed lock outcome =>
      some ({ sys with locks := sys.locks.pass lock }.setPhase t (.unlocked lock outcome))
    | .unlocked lock outcome =>
      some ({ sys with locks := sys.locks.release task.resource lock }.setPhase t (.done outcome))
    | .done _ => none

/-- Gives a task the answer it waits for. -/
def answer (w : Wiring) (b : Behaviour) (t : TaskId) (a : Answer) (sys : System L) :
    Option (System L) :=
  match sys.tasks.find? t with
  | none => none
  | some task =>
    match task.phase with
    | .waiting lock state cursor =>
      some (sys.afterReview t lock (Cycle.resume w b task.resource state cursor a sys.site))
    | _ => none

/-- Takes up to `n` steps of a task. -/
def steps (w : Wiring) (b : Behaviour) (c : Chain L) (t : TaskId) : Nat → System L → System L
  | 0, sys => sys
  | n + 1, sys =>
    match sys.step w b c t with
    | some sys => steps w b c t n sys
    | none => sys

/-- Lets a task go on as far as it can by itself. It passes each phase at most once. -/
def advance (w : Wiring) (b : Behaviour) (c : Chain L) (t : TaskId) (sys : System L) : System L :=
  sys.steps w b c t 6

end System

end Muster
