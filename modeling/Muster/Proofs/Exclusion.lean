import Muster.Proofs.Run
import Muster.Proofs.Tables

/-!
# One review per class

The lock of a class is in the table for as long as some task works with it. A task that gets the
lock while another one has it gets the same lock, because the count of handles keeps the lock in the
table; and of the tasks with the same lock only its holder reviews.

`ClassLocks.Serves` is the invariant: the table names the lock of every task that has one, the
handles of a lock are those of the table and of the tasks, and a task that reviews holds its lock.
Each of the steps a task takes with its lock keeps it.

**Main statements.** `Serves.exclusive`: two reviews of one class are the same. `Run.orderly`: the
invariant holds in every run. `Run.locks_exclude`: so locks exclude, and go with the last task.
-/

namespace Muster

variable {L : Type}

namespace Phase

/-- The lock that a task works with. -/
def lock? : Phase L → Option LockId
  | called | done _ => none
  | handle k | inLine k | entered k | waiting k _ _ | reviewed k _ | unlocked k _ => some k

/-- The lock that a task has entered and not let go. -/
def held? : Phase L → Option LockId
  | entered k | waiting k _ _ | reviewed k _ => some k
  | _ => none

/-- The handles that a task has on a lock: the one it got first, and one in line or inside. -/
def handles : Phase L → LockId → Nat
  | called, _ | done _, _ => 0
  | handle j, k | unlocked j _, k => if j = k then 1 else 0
  | inLine j, k | entered j, k | waiting j _ _, k | reviewed j _, k => if j = k then 2 else 0

theorem lock?_of_held? {φ : Phase L} {k : LockId} (h : φ.held? = some k) : φ.lock? = some k := by
  cases φ with
  | entered _ | waiting _ _ _ | reviewed _ _ => exact h
  | called | handle _ | inLine _ | unlocked _ _ | done _ => cases h

theorem handles_of_held? {φ : Phase L} {j : LockId} (h : φ.held? = some j) (k : LockId) :
    φ.handles k = if j = k then 2 else 0 := by
  cases φ <;> cases h <;> rfl

theorem handles_unlocked (j k : LockId) (o : Outcome) :
    (unlocked j o : Phase L).handles k = if j = k then 1 else 0 := rfl

theorem handles_done (k : LockId) (o : Outcome) : (done o : Phase L).handles k = 0 := rfl

theorem handles_eq_zero_iff {φ : Phase L} {k : LockId} : φ.handles k = 0 ↔ φ.lock? ≠ some k := by
  cases φ <;> simp [handles, lock?]

end Phase

/-- The handles that all tasks have on a lock. -/
def handlesOn (tasks : Table TaskId (Task L)) (k : LockId) : Nat :=
  tasks.sumOf fun _ task => task.phase.handles k

namespace ClassLocks

/-- The lock of a class leaves the table with the last handle but one. -/
theorem release_of_two {l : ClassLocks} {r : ResourceClass} {k : LockId} {lock : Lock}
    (hr : l.byClass.find? r = some k) (found : l.locks.find? k = some lock)
    (two : lock.handles = 2) :
    l.release r k = { l with byClass := l.byClass.erase r, locks := l.locks.erase k } := by
  have pruned : l.prune r = { l with
      byClass := l.byClass.erase r
      locks := l.locks.insert k { lock with handles := 1 } } := by
    simp [prune, dropHandle, hr, found, two]
  have gone : (l.locks.insert k { lock with handles := 1 }).erase k = l.locks.erase k :=
    Table.ext_find? fun j => by
      rw [Table.find?_erase, Table.find?_erase, Table.find?_insert]
      by_cases e : j = k
      · rw [if_pos e, if_pos e]
      · rw [if_neg e, if_neg e, if_neg e]
  simp [release, found, two, pruned, dropHandle, gone]

theorem release_of_more {l : ClassLocks} {r : ResourceClass} {k : LockId} {lock : Lock}
    (found : l.locks.find? k = some lock) (more : 2 < lock.handles) :
    l.release r k =
      { l with locks := l.locks.insert k { lock with handles := lock.handles - 1 } } := by
  have h₂ : lock.handles ≠ 2 := by omega
  have h₁ : ¬ lock.handles ≤ 1 := by omega
  simp [release, found, h₂, dropHandle, h₁]

/-- The locks agree with the phases of the tasks. -/
structure Serves (l : ClassLocks) (tasks : Table TaskId (Task L)) : Prop where
  lock_lt : ∀ {r k}, l.byClass.find? r = some k → k < l.next
  unique : ∀ {r r' k}, l.byClass.find? r = some k → l.byClass.find? r' = some k → r = r'
  mapped : ∀ {t task k}, tasks.find? t = some task → task.phase.lock? = some k →
    l.byClass.find? task.resource = some k
  counted : ∀ {r k}, l.byClass.find? r = some k → ∃ lock, l.locks.find? k = some lock ∧
    lock.handles = 1 + handlesOn tasks k ∧ 1 ≤ handlesOn tasks k
  held : ∀ {t task k lock}, tasks.find? t = some task → task.phase.held? = some k →
    l.locks.find? k = some lock → lock.holder = some t

namespace Serves

variable {l : ClassLocks} {tasks : Table TaskId (Task L)} {t : TaskId} {r : ResourceClass}
  {k : LockId} {φ ψ : Phase L}

theorem exclusive (h : l.Serves tasks) {t t' : TaskId} {φ ψ : Phase L} {j k : LockId}
    (ht : tasks.find? t = some ⟨r, φ⟩) (ht' : tasks.find? t' = some ⟨r, ψ⟩)
    (hφ : φ.held? = some j) (hψ : ψ.held? = some k) : t = t' := by
  have mj := h.mapped ht (Phase.lock?_of_held? hφ)
  have mk := h.mapped ht' (Phase.lock?_of_held? hψ)
  cases mj.symm.trans mk
  obtain ⟨lock, found, -⟩ := h.counted mj
  have e := (h.held ht hφ found).symm.trans (h.held ht' hψ found)
  exact Option.some.inj e

/-- A class has a lock in the table exactly as long as some task of the class works with it. -/
theorem mapped_iff (h : l.Serves tasks) :
    l.byClass.find? r = some k ↔ ∃ t φ, tasks.find? t = some ⟨r, φ⟩ ∧ φ.lock? = some k := by
  constructor
  · intro mapped
    obtain ⟨lock, -, -, used⟩ := h.counted mapped
    have some : ¬ ∀ t task, tasks.find? t = some task → task.phase.handles k = 0 := fun none => by
      have zero : handlesOn tasks k = 0 := Table.sumOf_eq_zero none
      omega
    push Not at some
    obtain ⟨t, ⟨r', φ⟩, found, handles⟩ := some
    have has : φ.lock? = .some k := not_not.1 fun ne => handles (Phase.handles_eq_zero_iff.2 ne)
    cases h.unique (h.mapped found has) mapped
    exact ⟨t, φ, found, has⟩
  · rintro ⟨t, φ, found, has⟩
    exact h.mapped found has

theorem empty : ClassLocks.empty.Serves (∅ : Table TaskId (Task L)) where
  lock_lt h := nomatch h
  unique h := nomatch h
  mapped h := nomatch h
  counted h := nomatch h
  held h := nomatch h

/-- The handles of the tasks after one of them has changed its phase. -/
theorem handlesOn_insert (ht : tasks.find? t = some ⟨r, φ⟩) (ψ : Phase L) (k : LockId) :
    handlesOn (tasks.insert t ⟨r, ψ⟩) k + φ.handles k = handlesOn tasks k + ψ.handles k :=
  Table.sumOf_replace ht ⟨r, ψ⟩ fun _ task => task.phase.handles k

theorem handles_le (ht : tasks.find? t = some ⟨r, φ⟩) (k : LockId) :
    φ.handles k ≤ handlesOn tasks k :=
  Table.le_sumOf ht fun _ task => task.phase.handles k

/-- A new task has no lock. -/
theorem spawn (h : l.Serves tasks) (ht : tasks.find? t = none) :
    l.Serves (tasks.insert t ⟨r, .called⟩) := by
  have same : ∀ k, handlesOn (tasks.insert t ⟨r, .called⟩) k = handlesOn tasks k := fun k => by
    unfold handlesOn
    rw [Table.sumOf_insert_new ht]
    exact Nat.zero_add _
  refine ⟨h.lock_lt, h.unique, ?_, ?_, ?_⟩
  · intro t' task k ht' hk
    rcases Table.find?_insert_cases ht' with ⟨-, rfl⟩ | ⟨-, old⟩
    · cases hk
    · exact h.mapped old hk
  · intro r' k hr
    rw [same]
    exact h.counted hr
  · intro t' task k lock ht' hk
    rcases Table.find?_insert_cases ht' with ⟨-, rfl⟩ | ⟨-, old⟩
    · cases hk
    · exact h.held old hk

/-- A task of the class `r` goes on, and the lock of the class becomes `f` of what it was. Either
the task has a handle on the lock then, or others have. -/
theorem turn (h : l.Serves tasks) (ht : tasks.find? t = some ⟨r, φ⟩)
    (hr : l.byClass.find? r = some k) (hφ : ∀ j ≠ k, φ.handles j = 0)
    (hψ : ψ.lock? = some k ∨ ψ.lock? = none ∧ φ.handles k < handlesOn tasks k) {l' : ClassLocks}
    (f : Lock → Lock) (hclass : l'.byClass = l.byClass) (hnext : l'.next = l.next)
    (hlocks : ∀ j, l'.locks.find? j = if j = k then (l.locks.find? k).map f else l.locks.find? j)
    (count : ∀ lock, l.locks.find? k = some lock →
      (f lock).handles + φ.handles k = lock.handles + ψ.handles k)
    (enters : ∀ lock, l.locks.find? k = some lock → ψ.held? = some k → (f lock).holder = some t)
    (others : ∀ lock t', l.locks.find? k = some lock → t' ≠ t → lock.holder = some t' →
      (f lock).holder = some t') : l'.Serves (tasks.insert t ⟨r, ψ⟩) := by
  have handles := fun j => handlesOn_insert ht ψ j
  have ψ_lock : ∀ {j}, ψ.lock? = some j → j = k := fun hj => by
    rcases hψ with e | ⟨e, -⟩
    · exact Option.some.inj (hj.symm.trans e)
    · exact nomatch hj.symm.trans e
  have ψ_other : ∀ j ≠ k, ψ.handles j = 0 := fun j hj =>
    Phase.handles_eq_zero_iff.2 fun e => hj (ψ_lock e)
  constructor
  case lock_lt =>
    intro r' j hr'
    rw [hclass] at hr'
    rw [hnext]
    exact h.lock_lt hr'
  case unique =>
    intro r₁ r₂ j h₁ h₂
    rw [hclass] at h₁ h₂
    exact h.unique h₁ h₂
  case mapped =>
    intro t' task j ht' hj
    rw [hclass]
    rcases Table.find?_insert_cases ht' with ⟨-, rfl⟩ | ⟨-, old⟩
    · rw [ψ_lock hj]
      exact hr
    · exact h.mapped old hj
  case counted =>
    intro r' j hr'
    rw [hclass] at hr'
    obtain ⟨lock, found, counted, used⟩ := h.counted hr'
    have new := handles j
    rw [hlocks]
    by_cases e : j = k
    · subst e
      have more : ψ.handles j ≤ handlesOn (tasks.insert t ⟨r, ψ⟩) j :=
        handles_le (r := r) (by rw [Table.find?_insert, if_pos rfl]) j
      have := count lock found
      rw [if_pos rfl, found]
      refine ⟨_, rfl, by omega, ?_⟩
      rcases hψ with e | ⟨-, fewer⟩
      · have some : ψ.handles j ≠ 0 := fun none => Phase.handles_eq_zero_iff.1 none e
        omega
      · omega
    · rw [hφ j e, ψ_other j e] at new
      rw [if_neg e]
      exact ⟨lock, found, by omega, by omega⟩
  case held =>
    intro t' task j lock ht' hj found
    rw [hlocks] at found
    by_cases e : j = k
    · subst e
      rw [if_pos rfl] at found
      obtain ⟨lock, before, rfl⟩ := Option.map_eq_some_iff.1 found
      rcases Table.find?_insert_cases ht' with ⟨rfl, rfl⟩ | ⟨ne, old⟩
      · exact enters lock before hj
      · exact others lock t' before ne (h.held old hj before)
    · rw [if_neg e] at found
      rcases Table.find?_insert_cases ht' with ⟨rfl, rfl⟩ | ⟨-, old⟩
      · exact absurd (ψ_lock (Phase.lock?_of_held? hj)) e
      · exact h.held old hj found

/-- The lock of a class becomes what it was. -/
theorem find?_same (l : ClassLocks) (k j : LockId) :
    l.locks.find? j = if j = k then (l.locks.find? k).map id else l.locks.find? j := by
  by_cases e : j = k
  · rw [if_pos e, e, Option.map_id, id]
  · rw [if_neg e]

/-- No task has a handle on a lock that is yet to be made. -/
theorem handlesOn_next (h : l.Serves tasks) : handlesOn tasks l.next = 0 := by
  refine Table.sumOf_eq_zero fun t task found => Phase.handles_eq_zero_iff.2 ?_
  intro hk
  exact absurd (h.lock_lt (h.mapped found hk)) (Nat.lt_irrefl _)

/-- The first task of a class gets a new lock. -/
theorem get_new (h : l.Serves tasks) (ht : tasks.find? t = some ⟨r, .called⟩)
    (none : l.byClass.find? r = none) {l' : ClassLocks}
    (hclass : l'.byClass = l.byClass.insert r l.next) (hnext : l'.next = l.next + 1)
    (hlocks : l'.locks = l.locks.insert l.next { handles := 2 }) :
    l'.Serves (tasks.insert t ⟨r, .handle l.next⟩) := by
  have handles := fun j => handlesOn_insert ht (.handle l.next) j
  have named : ∀ {r' j}, l'.byClass.find? r' = some j →
      r' = r ∧ j = l.next ∨ r' ≠ r ∧ l.byClass.find? r' = some j := fun hr' =>
    Table.find?_insert_cases (hclass ▸ hr')
  constructor
  case lock_lt =>
    intro r' j hr'
    rw [hnext]
    rcases named hr' with ⟨-, rfl⟩ | ⟨-, old⟩
    · exact Nat.lt_succ_self _
    · exact Nat.lt_succ_of_lt (h.lock_lt old)
  case unique =>
    intro r₁ r₂ j h₁ h₂
    rcases named h₁ with ⟨rfl, rfl⟩ | ⟨-, old₁⟩ <;> rcases named h₂ with ⟨rfl, e⟩ | ⟨-, old₂⟩
    · rfl
    · exact absurd (h.lock_lt old₂) (Nat.lt_irrefl _)
    · exact absurd (h.lock_lt old₁) (e ▸ Nat.lt_irrefl _)
    · exact h.unique old₁ old₂
  case mapped =>
    intro t' task j ht' hj
    rw [hclass, Table.find?_insert]
    rcases Table.find?_insert_cases ht' with ⟨-, rfl⟩ | ⟨-, old⟩
    · cases hj
      exact if_pos rfl
    · have mapped := h.mapped old hj
      rw [if_neg fun e => ?_, mapped]
      rw [e, none] at mapped
      cases mapped
  case counted =>
    intro r' j hr'
    have new := handles j
    rw [hlocks, Table.find?_insert]
    rcases named hr' with ⟨rfl, rfl⟩ | ⟨-, old⟩
    · have one : (Phase.handle l.next : Phase L).handles l.next = 1 := if_pos rfl
      rw [one, h.handlesOn_next] at new
      rw [if_pos rfl]
      exact ⟨_, rfl, by rw [show handlesOn _ l.next = 1 from new], Nat.le_of_eq new.symm⟩
    · obtain ⟨lock, found, counted, used⟩ := h.counted old
      have ne : j ≠ l.next := Nat.ne_of_lt (h.lock_lt old)
      have zero : (Phase.handle l.next : Phase L).handles j = 0 := if_neg (Ne.symm ne)
      rw [zero, Nat.add_zero] at new
      rw [if_neg ne, show handlesOn _ j = handlesOn tasks j from new]
      exact ⟨lock, found, counted, used⟩
  case held =>
    intro t' task j lock ht' hj found
    rcases Table.find?_insert_cases ht' with ⟨-, rfl⟩ | ⟨-, old⟩
    · cases hj
    · have mapped := h.mapped old (Phase.lock?_of_held? hj)
      rw [hlocks, Table.find?_insert, if_neg (Nat.ne_of_lt (h.lock_lt mapped))] at found
      exact h.held old hj found

/-- A task gets a handle on the lock of its class. -/
theorem get (h : l.Serves tasks) (ht : tasks.find? t = some ⟨r, .called⟩) :
    (l.get r).2.Serves (tasks.insert t ⟨r, .handle (l.get r).1⟩) := by
  simp only [ClassLocks.get]
  split
  · rename_i k hr
    exact h.turn ht hr (fun j _ => rfl) (.inl rfl) _ rfl rfl
      (fun j => Table.find?_modify l.locks k j _)
      (fun lock _ => congrArg (lock.handles + ·) (if_pos rfl).symm)
      (fun _ _ held => by cases held)
      (fun lock t' _ _ holder => holder)
  · rename_i hr
    exact h.get_new ht hr rfl rfl rfl

/-- A task that stays inside, at whatever point of its review. -/
theorem stay (h : l.Serves tasks) (ht : tasks.find? t = some ⟨r, φ⟩) (hφ : φ.held? = some k)
    (hψ : ψ.held? = some k) : l.Serves (tasks.insert t ⟨r, ψ⟩) := by
  refine h.turn ht (h.mapped ht (Phase.lock?_of_held? hφ)) ?_
    (.inl (Phase.lock?_of_held? hψ)) id rfl rfl (find?_same l k) ?_
    (fun lock found _ => h.held ht hφ found) (fun lock t' _ _ holder => holder)
  · intro j hj
    rw [Phase.handles_of_held? hφ, if_neg (Ne.symm hj)]
  · intro lock _
    rw [Phase.handles_of_held? hφ, Phase.handles_of_held? hψ]
    rfl

/-- The first in line enters when it finds that it holds the lock. -/
theorem enter (h : l.Serves tasks) (ht : tasks.find? t = some ⟨r, .inLine k⟩)
    (holds : l.holds k t = true) : l.Serves (tasks.insert t ⟨r, .entered k⟩) := by
  refine h.turn ht (h.mapped ht rfl) (fun j hj => if_neg (Ne.symm hj)) (.inl rfl) id rfl rfl
    (find?_same l k) (fun lock _ => rfl) ?_ (fun lock t' _ _ holder => holder)
  intro lock found _
  unfold ClassLocks.holds at holds
  rw [found, Option.any_some] at holds
  exact eq_of_beq holds

/-- A task with a handle takes a free lock or stands in its line. -/
theorem arrive (h : l.Serves tasks) (ht : tasks.find? t = some ⟨r, .handle k⟩) :
    (l.arrive k t).Serves
      (tasks.insert t ⟨r, if (l.arrive k t).holds k t then .entered k else .inLine k⟩) := by
  have modified := fun j => Table.find?_modify l.locks k j fun lock =>
    let lock := { lock with handles := lock.handles + 1 }
    if lock.holder.isNone && lock.line.isEmpty then { lock with holder := some t }
    else { lock with line := lock.line ++ [t] }
  refine h.turn ht (h.mapped ht rfl) (fun j hj => if_neg (Ne.symm hj)) (.inl ?_) _ rfl rfl modified
    ?_ ?_ ?_
  · split <;> rfl
  · intro lock _
    have two :
        (if (l.arrive k t).holds k t then .entered k else .inLine k : Phase L).handles k = 2 := by
      split <;> exact if_pos rfl
    rw [two]
    simp only [Phase.handles, if_true]
    split <;> rfl
  · intro lock found held
    split at held
    · rename_i holds
      have now := modified k
      rw [if_pos rfl, found] at now
      unfold ClassLocks.holds ClassLocks.arrive at holds
      rw [now, Option.map_some, Option.any_some] at holds
      exact eq_of_beq holds
    · cases held
  · intro lock t' _ _ holder
    simp only [holder, Option.isNone_some, Bool.false_and]
    rfl

/-- A task that lets its lock go keeps its handle. -/
theorem pass (h : l.Serves tasks) {o : Outcome} (ht : tasks.find? t = some ⟨r, .reviewed k o⟩) :
    (l.pass k).Serves (tasks.insert t ⟨r, .unlocked k o⟩) := by
  have hr : l.byClass.find? r = some k := h.mapped ht rfl
  refine h.turn ht hr (fun j hj => if_neg (Ne.symm hj)) (.inl rfl) _ rfl rfl
    (fun j => Table.find?_modify l.locks k j _) ?_ (fun _ _ held => nomatch held) ?_
  · intro lock found
    obtain ⟨lock', found', counted, -⟩ := h.counted hr
    cases found.symm.trans found'
    simp only [Phase.handles, if_true]
    omega
  · intro lock t' found ne holder
    -- The task itself holds the lock, so nobody else does.
    exact absurd (Option.some.inj (holder.symm.trans (h.held ht rfl found))) ne

/-- The handle that a task gives back is the last one but that of the table: the lock goes. -/
theorem release_last (h : l.Serves tasks) {o : Outcome}
    (ht : tasks.find? t = some ⟨r, .unlocked k o⟩) (last : handlesOn tasks k = 1)
    {l' : ClassLocks} (hclass : l'.byClass = l.byClass.erase r)
    (hnext : l'.next = l.next) (hlocks : l'.locks = l.locks.erase k) :
    l'.Serves (tasks.insert t ⟨r, .done o⟩) := by
  have hr : l.byClass.find? r = some k := h.mapped ht rfl
  have handles := fun j => handlesOn_insert ht (.done o) j
  simp only [Phase.handles_unlocked, Phase.handles_done, Nat.add_zero] at handles
  have named : ∀ {r' j}, l'.byClass.find? r' = some j → r' ≠ r ∧ l.byClass.find? r' = some j := by
    intro r' j hr'
    rw [hclass] at hr'
    exact Table.find?_of_erase hr'
  have others : ∀ {r' j}, r' ≠ r → l.byClass.find? r' = some j → j ≠ k := fun ne hr' e =>
    ne (h.unique (e ▸ hr') hr)
  constructor
  case lock_lt =>
    intro r' j hr'
    rw [hnext]
    exact h.lock_lt (named hr').2
  case unique =>
    intro r₁ r₂ j h₁ h₂
    exact h.unique (named h₁).2 (named h₂).2
  case mapped =>
    intro t' task j ht' hj
    rcases Table.find?_insert_cases ht' with ⟨-, rfl⟩ | ⟨ne, old⟩
    · cases hj
    · have mapped := h.mapped old hj
      rw [hclass, Table.find?_erase, if_neg, mapped]
      -- Another task of the class would have a handle on the lock besides the last one.
      intro e
      rw [e, hr] at mapped
      cases mapped
      have mine := handles k
      have now : (tasks.insert t ⟨r, .done o⟩).find? t' = some task := ht'
      have some : task.phase.handles k ≠ 0 := fun e => Phase.handles_eq_zero_iff.1 e hj
      have theirs : task.phase.handles k ≤ handlesOn _ k :=
        Table.le_sumOf now fun _ task => task.phase.handles k
      rw [if_pos rfl] at mine
      omega
  case counted =>
    intro r' j hr'
    obtain ⟨ne, hr'⟩ := named hr'
    obtain ⟨lock, found, counted, used⟩ := h.counted hr'
    have e := others ne hr'
    have new := handles j
    rw [if_neg (Ne.symm e), Nat.add_zero] at new
    rw [hlocks, Table.find?_erase, if_neg e]
    exact ⟨lock, found, new ▸ counted, new ▸ used⟩
  case held =>
    intro t' task j lock ht' hj found
    rcases Table.find?_insert_cases ht' with ⟨-, rfl⟩ | ⟨-, old⟩
    · cases hj
    · rw [hlocks] at found
      exact h.held old hj (Table.find?_of_erase found).2

/-- A task that is through gives its handle back. -/
theorem release (h : l.Serves tasks) {o : Outcome} (ht : tasks.find? t = some ⟨r, .unlocked k o⟩) :
    (l.release r k).Serves (tasks.insert t ⟨r, .done o⟩) := by
  have hr : l.byClass.find? r = some k := h.mapped ht rfl
  obtain ⟨lock, found, counted, used⟩ := h.counted hr
  by_cases two : lock.handles = 2
  · rw [release_of_two hr found two]
    exact h.release_last ht (by omega) rfl rfl rfl
  · rw [release_of_more found (by omega)]
    have mine : (Phase.unlocked k o : Phase L).handles k = 1 := if_pos rfl
    refine h.turn ht hr (fun j hj => if_neg (Ne.symm hj)) (.inr ⟨rfl, by omega⟩)
      (fun lock => { lock with handles := lock.handles - 1 }) rfl rfl ?_ ?_
      (fun _ _ held => nomatch held) (fun lock t' _ _ holder => holder)
    · intro j
      rw [Table.find?_insert, found]
      rfl
    · intro lock' found'
      cases found.symm.trans found'
      rw [mine, Phase.handles_done]
      show lock.handles - 1 + 1 = lock.handles + 0
      omega

end Serves

end ClassLocks

/-! ## Runs -/

theorem Cycle.held?_phase (cycle : Cycle L) (k : LockId) : (cycle.phase k).held? = some k := by
  cases cycle <;> rfl

namespace System

/-- The locks serve the tasks, and the tasks are those that were made. -/
structure Orderly (sys : System L) : Prop where
  serves : sys.locks.Serves sys.tasks
  made : ∀ {t task}, sys.tasks.find? t = some task → t < sys.next

namespace Orderly

variable {sys sys' : System L} {t : TaskId}

/-- A site that nobody works on. -/
theorem quiet (s : Site L) : ({ site := s } : System L).Orderly where
  serves := .empty
  made h := nomatch h

theorem idle (limiter : L) (line : RequestLine) : (System.idle limiter line).Orderly := quiet _

theorem withSite (h : sys.Orderly) (s : Site L) : { sys with site := s }.Orderly :=
  ⟨h.serves, h.made⟩

theorem find?_next (h : sys.Orderly) : sys.tasks.find? sys.next = none := by
  cases found : sys.tasks.find? sys.next with
  | none => rfl
  | some task => exact absurd (h.made found) (Nat.lt_irrefl _)

theorem spawn (h : sys.Orderly) (r : ResourceClass) : (sys.spawn r).2.Orderly := by
  refine ⟨h.serves.spawn h.find?_next, ?_⟩
  intro t task found
  rcases Table.find?_insert_cases found with ⟨rfl, -⟩ | ⟨-, old⟩
  · exact Nat.lt_succ_self _
  · exact Nat.lt_succ_of_lt (h.made old)

theorem callEach (h : sys.Orderly) (rs : List ResourceClass) : (sys.callEach rs).Orderly := by
  induction rs generalizing sys with
  | nil => exact h
  | cons r rs ih => exact ih (h.spawn r)

theorem find?_spawn (h : sys.Orderly) {task : Task L} (ht : sys.tasks.find? t = some task)
    (r : ResourceClass) : (sys.spawn r).2.tasks.find? t = some task := by
  show (sys.tasks.insert sys.next _).find? t = _
  rw [Table.find?_insert, if_neg (Nat.ne_of_lt (h.made ht)), ht]

theorem find?_callEach (h : sys.Orderly) {task : Task L} (ht : sys.tasks.find? t = some task)
    (rs : List ResourceClass) : (sys.callEach rs).tasks.find? t = some task := by
  induction rs generalizing sys with
  | nil => exact ht
  | cons r rs ih => exact ih (h.spawn r) (h.find?_spawn ht r)

theorem put (h : sys.Orderly) {r : ResourceClass} {φ ψ : Phase L} {s : Site L} {l : ClassLocks}
    (ht : sys.tasks.find? t = some ⟨r, φ⟩) (serves : l.Serves (sys.tasks.insert t ⟨r, ψ⟩)) :
    ({ sys with site := s, locks := l }.put t r ψ).Orderly := by
  refine ⟨serves, ?_⟩
  intro t' task found
  rcases Table.find?_insert_cases found with ⟨rfl, -⟩ | ⟨-, old⟩
  · exact h.made ht
  · exact h.made old

variable [Limiter L] {w : Wiring} {b : Behaviour} {c : Chain L}

/-- One case per thing that a task can do with its lock. -/
theorem turn (h : sys.Orderly) (ht : Turn w b c sys t sys') : sys'.Orderly := by
  cases ht with
  | get found => exact h.put found (h.serves.get found)
  | arrive found => exact h.put found (h.serves.arrive found)
  | enter found holds => exact h.put found (h.serves.enter found holds)
  | begin found _ => exact h.put found (h.serves.stay found rfl (Cycle.held?_phase _ _))
  | pass found => exact h.put found (h.serves.pass found)
  | release found => exact h.put found (h.serves.release found)

theorem act (h : sys.Orderly) {a : Action} (acted : sys.act w b c a = some sys') :
    sys'.Orderly := by
  cases a with
  | move m =>
    cases acted
    exact h.withSite _
  | call r =>
    cases acted
    exact h.spawn r
  | callAll =>
    cases acted
    exact h.callEach _
  | receive =>
    obtain ⟨⟨q, line⟩, -, rfl⟩ := Option.map_eq_some_iff.1 acted
    exact (h.withSite _).spawn q.resource
  | step t => exact h.turn (turn_of_step acted)
  | answer t a =>
    obtain ⟨r, k, st, cursor, s, cycle, found, -, rfl⟩ := turn_of_answer acted
    exact h.put found (h.serves.stay found rfl (Cycle.held?_phase _ _))

end Orderly

end System

/-! ## What becomes of a task -/

/-- The task that takes an action. -/
def Action.task? : Action → Option TaskId
  | step t | answer t _ => some t
  | move _ | call _ | callAll | receive => none

/-- The phases that a task passes through. -/
inductive Phase.Leads : Phase L → Phase L → Prop
  | get {k} : Leads .called (.handle k)
  | enter {k} : Leads (.handle k) (.entered k)
  | line {k} : Leads (.handle k) (.inLine k)
  | next {k} : Leads (.inLine k) (.entered k)
  | begin {k} (cycle : Cycle L) : Leads (.entered k) (cycle.phase k)
  | resume {k st cursor} (cycle : Cycle L) : Leads (.waiting k st cursor) (cycle.phase k)
  | pass {k o} : Leads (.reviewed k o) (.unlocked k o)
  | release {k o} : Leads (.unlocked k o) (.done o)

/-- The review of a task that has begun it. -/
def Phase.cycle? : Phase L → Option (Cycle L)
  | .called | .handle _ | .inLine _ | .entered _ => none
  | .waiting _ st cursor => some (.waiting st cursor)
  | .reviewed _ o | .unlocked _ o | .done o => some (.finished o)

theorem Cycle.cycle?_phase (cycle : Cycle L) (k : LockId) : (cycle.phase k).cycle? = some cycle := by
  cases cycle <;> rfl

/-- A task whose review waits gets its answer by the request of the review. -/
theorem System.request?_of_cycle? {sys : System L} {t : TaskId} {r : ResourceClass} {φ : Phase L}
    {st : ReviewState} {cursor : Cursor L} (found : sys.tasks.find? t = some ⟨r, φ⟩)
    (waits : φ.cycle? = some (.waiting st cursor)) :
    sys.request? t = some cursor.pause.request := by
  simp only [request?, found, Option.bind_some, Task.request?]
  cases φ with
  | waiting k st' cursor' =>
    cases waits
    rfl
  | _ => cases waits

/-- What an action of a task that reviews the class `r` makes of the site and of the review. -/
inductive System.Reviews [Limiter L] (w : Wiring) (b : Behaviour) (c : Chain L) (r : ResourceClass)
    (a : Action) : Site L × Option (Cycle L) → Site L × Option (Cycle L) → Prop
  /-- The task does something with its lock. -/
  | still (x) : Reviews w b c r a x x
  | begin {s s' cycle} : Cycle.begin w b c r s = (s', cycle) →
      Reviews w b c r a (s, none) (s', some cycle)
  | resume {s s' cycle t answer st cursor} : a = .answer t answer →
      Cycle.resume w b r st cursor answer s = (s', cycle) →
      Reviews w b c r a (s, some (.waiting st cursor)) (s', some cycle)

namespace System

theorem find?_put (sys : System L) (t : TaskId) (r : ResourceClass) (φ : Phase L) :
    (sys.put t r φ).tasks.find? t = some ⟨r, φ⟩ := by
  rw [put, Table.find?_insert, if_pos rfl]

theorem find?_put_of_ne (sys : System L) {t t' : TaskId} (h : t ≠ t') (r : ResourceClass)
    (φ : Phase L) : (sys.put t' r φ).tasks.find? t = sys.tasks.find? t := by
  rw [put, Table.find?_insert, if_neg h]

theorem callEach_site (rs : List ResourceClass) (sys : System L) :
    (sys.callEach rs).site = sys.site := by
  induction rs generalizing sys with
  | nil => rfl
  | cons r rs ih => exact ih (sys.spawn r).2

/-- A task that was not there is called. -/
theorem called_callEach {t : TaskId} (rs : List ResourceClass) {sys : System L} {task : Task L}
    (found : (sys.callEach rs).tasks.find? t = some task) :
    sys.tasks.find? t = some task ∨ task.phase = .called := by
  induction rs generalizing sys with
  | nil => exact .inl found
  | cons r rs ih =>
    rcases ih found with old | new
    · rcases Table.find?_insert_cases old with ⟨-, rfl⟩ | ⟨-, old⟩
      · exact .inr rfl
      · exact .inl old
    · exact .inr new

variable [Limiter L] {w : Wiring} {b : Behaviour} {c : Chain L} {sys sys' : System L} {t : TaskId}
  {r : ResourceClass} {φ : Phase L} {a : Action}

/-- Only a task that is there takes an action. -/
theorem found_own (acted : sys.act w b c a = some sys') (own : a.task? = some t) :
    ∃ r φ, sys.tasks.find? t = some ⟨r, φ⟩ := by
  cases a with
  | step t' =>
    cases own
    cases turn_of_step acted with
    | get found | arrive found | enter found _ | begin found _ | pass found | release found =>
      exact ⟨_, _, found⟩
  | answer t' x =>
    cases own
    obtain ⟨r, k, st, cursor, s, cycle, found, -⟩ := turn_of_answer acted
    exact ⟨r, _, found⟩
  | move _ | call _ | callAll | receive => cases own

/-- A task that takes the action goes on to one of the next phases. -/
theorem act_own (acted : sys.act w b c a = some sys') (own : a.task? = some t)
    (ht : sys.tasks.find? t = some ⟨r, φ⟩) :
    ∃ ψ, φ.Leads ψ ∧ sys'.tasks.find? t = some ⟨r, ψ⟩ := by
  cases a with
  | step t' =>
    cases own
    cases turn_of_step acted with
    | get found =>
      cases ht.symm.trans found
      exact ⟨_, .get, find?_put _ _ _ _⟩
    | arrive found =>
      cases ht.symm.trans found
      refine ⟨_, ?_, find?_put _ _ _ _⟩
      split
      · exact .enter
      · exact .line
    | enter found _ =>
      cases ht.symm.trans found
      exact ⟨_, .next, find?_put _ _ _ _⟩
    | begin found _ =>
      cases ht.symm.trans found
      exact ⟨_, .begin _, find?_put _ _ _ _⟩
    | pass found =>
      cases ht.symm.trans found
      exact ⟨_, .pass, find?_put _ _ _ _⟩
    | release found =>
      cases ht.symm.trans found
      exact ⟨_, .release, find?_put _ _ _ _⟩
  | answer t' x =>
    cases own
    obtain ⟨r', k, st, cursor, s, cycle, found, -, rfl⟩ := turn_of_answer acted
    cases ht.symm.trans found
    exact ⟨_, .resume cycle, find?_put _ _ _ _⟩
  | move _ | call _ | callAll | receive => cases own

/-- What an action of a task does to the site, and to its review. -/
theorem act_review (acted : sys.act w b c a = some sys') (own : a.task? = some t)
    (ht : sys.tasks.find? t = some ⟨r, φ⟩) : ∃ ψ, sys'.tasks.find? t = some ⟨r, ψ⟩ ∧
      Reviews w b c r a (sys.site, φ.cycle?) (sys'.site, ψ.cycle?) := by
  cases a with
  | step t' =>
    cases own
    cases turn_of_step acted with
    | get found =>
      cases ht.symm.trans found
      exact ⟨_, find?_put _ _ _ _, .still _⟩
    | arrive found =>
      cases ht.symm.trans found
      refine ⟨_, find?_put _ _ _ _, ?_⟩
      split <;> exact .still _
    | enter found _ =>
      cases ht.symm.trans found
      exact ⟨_, find?_put _ _ _ _, .still _⟩
    | @begin r' k s cycle found begun =>
      cases ht.symm.trans found
      refine ⟨_, find?_put _ _ _ _, ?_⟩
      rw [Cycle.cycle?_phase]
      exact .begin begun
    | pass found =>
      cases ht.symm.trans found
      exact ⟨_, find?_put _ _ _ _, .still _⟩
    | release found =>
      cases ht.symm.trans found
      exact ⟨_, find?_put _ _ _ _, .still _⟩
  | answer t' x =>
    cases own
    obtain ⟨r', k, st, cursor, s, cycle, found, resumed, rfl⟩ := turn_of_answer acted
    cases ht.symm.trans found
    refine ⟨_, find?_put _ _ _ _, ?_⟩
    rw [Cycle.cycle?_phase]
    exact .resume rfl resumed
  | move _ | call _ | callAll | receive => cases own

/-- An action of a task leaves other tasks as they are. -/
theorem act_same (acted : sys.act w b c a = some sys') (own : a.task? = some t) {t' : TaskId}
    (ne : t' ≠ t) : sys'.tasks.find? t' = sys.tasks.find? t' := by
  cases a with
  | step _ =>
    cases own
    cases turn_of_step acted <;> exact find?_put_of_ne _ ne _ _
  | answer _ x =>
    cases own
    obtain ⟨_, _, _, _, _, _, -, -, rfl⟩ := turn_of_answer acted
    exact find?_put_of_ne _ ne _ _
  | move _ | call _ | callAll | receive => cases own

/-- A task that does not take the action stays where it is. -/
theorem Orderly.act_other (h : sys.Orderly) (acted : sys.act w b c a = some sys')
    (other : a.task? ≠ some t) {task : Task L} (ht : sys.tasks.find? t = some task) :
    sys'.tasks.find? t = some task := by
  cases a with
  | move m =>
    cases acted
    exact ht
  | call r =>
    cases acted
    exact h.find?_spawn ht r
  | callAll =>
    cases acted
    exact h.find?_callEach ht _
  | receive =>
    obtain ⟨⟨q, line⟩, -, rfl⟩ := Option.map_eq_some_iff.1 acted
    exact (h.withSite _).find?_spawn ht q.resource
  | step t' | answer t' _ => exact (act_same acted rfl fun e => other (e ▸ rfl)).trans ht

/-- Whatever happens, a task keeps its class. -/
theorem Orderly.act_task (h : sys.Orderly) (acted : sys.act w b c a = some sys')
    (ht : sys.tasks.find? t = some ⟨r, φ⟩) : ∃ ψ, sys'.tasks.find? t = some ⟨r, ψ⟩ := by
  by_cases own : a.task? = some t
  · obtain ⟨ψ, -, found⟩ := act_own acted own ht
    exact ⟨ψ, found⟩
  · exact ⟨φ, h.act_other acted own ht⟩

/-- No class has two tasks. -/
def Single {L : Type} (sys : System L) : Prop :=
  ∀ ⦃r t t' φ ψ⦄, sys.tasks.find? t = some ⟨r, φ⟩ → sys.tasks.find? t' = some ⟨r, ψ⟩ → t = t'

/-- Tasks are not taken away, so no class had two tasks before if it has none now. -/
theorem Orderly.single_before (h : sys.Orderly) (acted : sys.act w b c a = some sys')
    (single : sys'.Single) : sys.Single := by
  intro r t t' φ ψ found found'
  obtain ⟨_, later⟩ := h.act_task acted found
  obtain ⟨_, later'⟩ := h.act_task acted found'
  exact single later later'

/-- A task that did not take the action was there, or has just been called. -/
theorem found_act (acted : sys.act w b c a = some sys') (other : a.task? ≠ some t)
    {task : Task L} (found : sys'.tasks.find? t = some task) :
    sys.tasks.find? t = some task ∨ task.phase = .called := by
  have spawned : ∀ {sys : System L} {q}, (sys.spawn q).2.tasks.find? t = some task →
      sys.tasks.find? t = some task ∨ task.phase = .called := by
    intro sys q found
    exact called_callEach [q] found
  cases a with
  | move m =>
    cases acted
    exact .inl found
  | call r =>
    cases acted
    exact spawned found
  | callAll =>
    cases acted
    exact called_callEach _ found
  | receive =>
    obtain ⟨⟨q, line⟩, -, rfl⟩ := Option.map_eq_some_iff.1 acted
    exact spawned found
  | step t' | answer t' _ =>
    exact .inl ((act_same acted rfl fun e => other (e ▸ rfl)).symm.trans found)

end System

/-! ## Runs in order -/

variable [Limiter L] {w : Wiring} {b : Behaviour} {c : Chain L} {terms : Terms}
  {start sys : System L} {h : History L}

theorem Run.orderly (run : Run w b c terms start h sys) (begins : start.Orderly) : sys.Orderly := by
  induction run with
  | start => exact begins
  | next _ _ acted ih => exact ih.act acted

/-- Locks exclude and are pruned. At most one task of a class is inside its review; the tasks of a
class that are between getting the lock and giving it back all work with the one that the table has
for the class; the table has a lock for a class exactly as long as there is such a task, and so none
at all when every review is over. -/
theorem Run.locks_exclude {s : Site L} (run : Run w b c terms { site := s } h sys) :
    (∀ {r t t' φ ψ}, sys.tasks.find? t = some ⟨r, φ⟩ → sys.tasks.find? t' = some ⟨r, ψ⟩ →
      φ.held? ≠ none → ψ.held? ≠ none → t = t') ∧
    (∀ {r t φ k}, sys.tasks.find? t = some ⟨r, φ⟩ → φ.lock? = some k →
      sys.locks.byClass.find? r = some k) ∧
    (∀ r, sys.locks.byClass.find? r ≠ none ↔
      ∃ t φ, sys.tasks.find? t = some ⟨r, φ⟩ ∧ φ.lock? ≠ none) ∧
    ((∀ t task, sys.tasks.find? t = some task → task.outcome? ≠ none) → sys.locks.size = 0) := by
  have serves := (run.orderly (.quiet s)).serves
  have listed : ∀ r, sys.locks.byClass.find? r ≠ none ↔
      ∃ t φ, sys.tasks.find? t = some ⟨r, φ⟩ ∧ φ.lock? ≠ none := fun r => by
    simp only [Option.ne_none_iff_exists', serves.mapped_iff]
    constructor
    · rintro ⟨k, t, φ, found, has⟩
      exact ⟨t, φ, found, k, has⟩
    · rintro ⟨t, φ, found, k, has⟩
      exact ⟨k, t, φ, found, has⟩
  refine ⟨?_, fun found has => serves.mapped found has, listed, ?_⟩
  · intro r t t' φ ψ ht ht' hφ hψ
    obtain ⟨j, hj⟩ := Option.ne_none_iff_exists'.1 hφ
    obtain ⟨k, hk⟩ := Option.ne_none_iff_exists'.1 hψ
    exact serves.exclusive ht ht' hj hk
  · intro ended
    have none : sys.locks.byClass = .empty := Table.ext_find? fun r => by
      by_contra some
      obtain ⟨t, φ, found, has⟩ := (listed r).1 some
      cases φ with
      | done o => exact has rfl
      | _ => exact ended t _ found rfl
    show sys.locks.byClass.size = 0
    rw [none]
    rfl

/-- A second review of the class stands in line while the first one waits for a provider. When both
are over, the table is empty. -/
theorem locks_of_sample : ∃ h h' sys sys',
    Run Sample.wiring Sample.behaviour Sample.chain {} { site := Sample.start.site } h sys ∧
    (∃ st cursor, sys.tasks.find? 0 = some ⟨.unlabeled, .waiting 0 st cursor⟩) ∧
    sys.tasks.find? 1 = some ⟨.unlabeled, .inLine 0⟩ ∧
    sys.locks.byClass.find? .unlabeled = some 0 ∧
    Run Sample.wiring Sample.behaviour Sample.chain {} { site := Sample.start.site } h' sys' ∧
    sys'.tasks.size = 2 ∧ sys'.locks.size = 0 := by
  have free : ∀ actions : List Action, ∀ a ∈ actions, ∀ sys : System StaticLimiter,
    Terms.Allow {} sys a := fun _ a _ sys => Terms.allow_free sys a
  obtain ⟨h, sys, done, st, cursor, first, second⟩ : ∃ h sys, Sample.start.replay Sample.wiring
      Sample.behaviour Sample.chain (Sample.review ++ [.call .unlabeled, .step 1, .step 1]) [] =
        some (h, sys) ∧ ∃ st cursor,
      sys.tasks.find? 0 = some ⟨.unlabeled, .waiting 0 st cursor⟩ ∧
      sys.tasks.find? 1 = some ⟨.unlabeled, .inLine 0⟩ := ⟨_, _, rfl, _, _, rfl, rfl⟩
  obtain ⟨h', sys', done', two, ended⟩ : ∃ h' sys', Sample.start.replay Sample.wiring
      Sample.behaviour Sample.chain (Sample.refusal ++ [.call .unlabeled, .step 1, .step 1,
        .step 0, .step 0, .step 1, .step 1, .step 1, .step 1]) [] = some (h', sys') ∧
      sys'.tasks.size = 2 ∧
      sys'.tasks.values.all (·.outcome?.isSome) = true := ⟨_, _, rfl, rfl, rfl⟩
  have run := Run.of_replay done .start (free _)
  have run' := Run.of_replay done' .start (free _)
  refine ⟨h, h', sys, sys', run, ⟨st, cursor, first⟩, second, ?_, run', two, ?_⟩
  · exact (Run.locks_exclude run).2.1 second rfl
  · refine (Run.locks_exclude run').2.2.2 ?_
    intro t task found none
    have some := List.all_eq_true.1 ended task (Table.mem_values.2 ⟨t, found⟩)
    rw [none] at some
    cases some

end Muster
