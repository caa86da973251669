import Muster.Model
import Muster.Table

/-!
# Class locks

Each class has a lock as long as some task works with it. A task gets a handle on the lock, stands
in its line, holds it, lets it go and gives the handle back. Handles are counted: the table itself
has one, and so does every task that stands in line or holds the lock, besides the one it got first.
A lock leaves the table with the last task, which is when two handles are left, the one of the table
and the one that is given back.
-/

namespace Muster

abbrev TaskId := Nat
abbrev LockId := Nat

/-- A lock that is passed on in the order of arrival. -/
structure Lock where
  holder : Option TaskId := none
  line : List TaskId := []
  /-- How many handles there are. -/
  handles : Nat
deriving DecidableEq, Inhabited

/-- The locks of the classes that tasks work with. -/
structure ClassLocks where
  byClass : Table ResourceClass LockId := ∅
  locks : Table LockId Lock := ∅
  /-- The next lock to be made. -/
  next : LockId := 0

namespace ClassLocks

/-- No locks. -/
def empty : ClassLocks := {}

/-- The number of classes with a lock. -/
def size (l : ClassLocks) : Nat := l.byClass.size

/-- Whether a task holds a lock. -/
def holds (l : ClassLocks) (id : LockId) (t : TaskId) : Bool :=
  (l.locks.find? id).any fun k => k.holder == some t

/-- A handle on the lock of a class, which is made if there is none. -/
def get (l : ClassLocks) (r : ResourceClass) : LockId × ClassLocks :=
  match l.byClass.find? r with
  | some id => (id, { l with locks := l.locks.modify id fun k => { k with handles := k.handles + 1 } })
  | none => (l.next, {
      byClass := l.byClass.insert r l.next
      locks := l.locks.insert l.next { handles := 2 }
      next := l.next + 1 })

/-- Takes a free lock, or stands in its line. -/
def arrive (l : ClassLocks) (id : LockId) (t : TaskId) : ClassLocks :=
  { l with locks := l.locks.modify id fun k =>
      let k := { k with handles := k.handles + 1 }
      if k.holder.isNone && k.line.isEmpty then { k with holder := some t }
      else { k with line := k.line ++ [t] } }

/-- Passes a lock to the next in line. -/
def pass (l : ClassLocks) (id : LockId) : ClassLocks :=
  { l with locks := l.locks.modify id fun k =>
      { holder := k.line.head?, line := k.line.tail, handles := k.handles - 1 } }

/-- Drops one handle, and the lock with the last one. -/
def dropHandle (l : ClassLocks) (id : LockId) : ClassLocks :=
  match l.locks.find? id with
  | none => l
  | some k =>
    if k.handles ≤ 1 then { l with locks := l.locks.erase id }
    else { l with locks := l.locks.insert id { k with handles := k.handles - 1 } }

/-- Takes a class off the table, and with it the table's handle. -/
def prune (l : ClassLocks) (r : ResourceClass) : ClassLocks :=
  match l.byClass.find? r with
  | none => l
  | some id => { l with byClass := l.byClass.erase r }.dropHandle id

/-- Gives a handle back. The class leaves the table if nobody else has a handle. -/
def release (l : ClassLocks) (r : ResourceClass) (id : LockId) : ClassLocks :=
  let l := if (l.locks.find? id).any (·.handles == 2) then l.prune r else l
  l.dropHandle id

end ClassLocks

end Muster
