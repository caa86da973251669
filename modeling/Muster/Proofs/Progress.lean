import Muster.Proofs.Confluence

/-!
# Reviews come to an end

A review asks each provider of an engine at most once, so it makes only so many requests, and its
task takes only so many steps and answers. Nothing stops a task for good: it can take a step, or a
provider owes it an answer, or it stands in line for a lock that another task has. The last does not
happen as long as no class has two tasks: then each task finds its lock free.

**Main statements.** `Run.own_actions_le`: how many things tasks can do in a run. `Run.goes_on`: no
task is stuck in a run in which each class has one.
-/

namespace Muster

/-! ## How long a review goes on -/

section Left

variable {L : Type}

/-- The most requests that a review of one class makes in a chain. -/
def Chain.asks : Chain L → Nat
  | [] => 0
  | .engine e :: rest => e.providers.length + asks rest
  | _ :: rest => asks rest

/-- The most requests that a waiting review still makes. -/
def Cursor.left (cursor : Cursor L) : Nat := cursor.pause.providersLeft.length + cursor.rest.asks

variable [Limiter L] {w : Wiring} {b : Behaviour} {c : Chain L} {r : ResourceClass}
  {s s' : Site L} {st st' : ReviewState}

theorem Engine.visit_left {e : Engine} {later : List ResourceClass} {ps : Registry} {pause : Pause}
    (waits : e.visit w b r later ps s st = .waiting s' st' pause) :
    pause.providersLeft.length < ps.length := by
  induction ps generalizing s st with
  | nil => cases waits
  | cons p rest ih =>
    have longer : rest.length < (p :: rest).length := Nat.lt_succ_self _
    simp only [Engine.visit] at waits
    by_cases covered : st.unsatisfied r = 0
    · rw [if_pos covered] at waits
      cases waits
    rw [if_neg covered] at waits
    by_cases none : (e.consult b r p s st).1 = 0
    · rw [if_pos none] at waits
      exact (ih waits).trans longer
    rw [if_neg none] at waits
    split at waits
    · cases waits
      exact longer
    · exact (ih waits).trans longer

theorem Engine.start_left {e : Engine} {d : ClassDemand} {pause : Pause} (only : st.Only r d)
    (waits : e.start w b s st = .waiting s' st' pause) :
    pause.providersLeft.length < e.providers.length := by
  simp only [Engine.start, only.keys, Lockstep.visitClasses_one] at waits
  split at waits
  · exact visit_left waits
  · cases waits

theorem Chain.run_left (plain : c.Plain) (rest : Chain L) (hc : ∀ x ∈ rest, x ∈ c) {t : Tally}
    {d : ClassDemand} (only : st.Only r d) {cursor : Cursor L}
    (waits : Chain.run w b rest t s st = .waiting s' st' cursor) :
    cursor.left < Chain.asks rest := by
  induction rest generalizing t s st d with
  | nil => cases waits
  | cons strategy rest ih =>
    have hrest : ∀ x ∈ rest, x ∈ c := fun x mem => hc x (List.mem_cons_of_mem _ mem)
    cases strategy with
    | fallback => cases waits
    | custom => exact absurd (hc _ List.mem_cons_self) (plain _ _ _)
    | engine e =>
      have lock := Lockstep.reflexive (w := w) (b := b) (r := r) plain.onlyFails
      have started := lock.start (n := 0) (hc _ List.mem_cons_self) (s := s) ⟨rfl, d, only⟩
        trivial trivial
      rw [Chain.run_engine] at waits
      have asks : Chain.asks (.engine e :: rest) = e.providers.length + Chain.asks rest := rfl
      rcases eq : e.start w b s st with ⟨s₁, st₁⟩ | ⟨s₁, st₁, pause⟩
      · rw [eq] at started waits
        cases started with
        | settled h =>
          obtain ⟨-, d₁, only₁⟩ := h
          have left := ih hrest only₁ waits
          omega
      · rw [eq] at waits
        cases waits
        have left := Engine.start_left only eq
        simp only [Cursor.left]
        omega

/-- With each answer there are fewer requests left. -/
theorem Cursor.resume_left (plain : c.Plain) {cursor cursor' : Cursor L} {n : Nat}
    (follows : cursor.Follows b c r n) {d : ClassDemand} (only : st.Only r d) {a : Answer}
    (waits : cursor.resume w b a s st = .waiting s' st' cursor') : cursor'.left < cursor.left := by
  have lock := Lockstep.reflexive (w := w) (b := b) (r := r) plain.onlyFails
  have resumed := lock.engine_resume (n := n) follows.engine follows.resource follows.last
    follows.providers (s := s) (a := a) ⟨rfl, d, only⟩ rfl trivial trivial
  rw [Cursor.resume_eq] at waits
  rcases eq : cursor.engine.resume w b cursor.pause a s st with ⟨s₁, st₁⟩ | ⟨s₁, st₁, pause⟩
  · rw [eq] at resumed waits
    cases resumed with
    | settled h =>
      obtain ⟨-, d₁, only₁⟩ := h
      have left := Chain.run_left plain cursor.rest follows.rest only₁ waits
      simp only [Cursor.left] at left ⊢
      omega
  · rw [eq] at waits
    cases waits
    rw [Lockstep.resume_one _ w b a s st follows.last] at eq
    have left := Engine.visit_left eq
    simp only [Cursor.left]
    omega

theorem Cycle.begin_left (plain : c.Plain) {cursor : Cursor L}
    (begun : Cycle.begin w b c r s = (s', .waiting st cursor)) : cursor.left < c.asks := by
  change Cycle.settle w r (c.run w b {} (Cycle.opened r s) (Cycle.captured r s)) = _ at begun
  generalize ran : c.run w b {} (Cycle.opened r s) (Cycle.captured r s) = g at begun
  cases g with
  | finished => cases congrArg Prod.snd begun
  | waiting s₁ st₁ cursor₁ =>
    cases begun
    exact Chain.run_left plain c (fun _ mem => mem) (.captured r s) ran

theorem Cycle.resume_left (plain : c.Plain) {cursor cursor' : Cursor L} {n : Nat}
    (follows : cursor.Follows b c r n) {d : ClassDemand} (only : st.Only r d) {a : Answer}
    (resumed : Cycle.resume w b r st cursor a s = (s', .waiting st' cursor')) :
    cursor'.left < cursor.left := by
  unfold Cycle.resume at resumed
  generalize ran : cursor.resume w b a s st = g at resumed
  cases g with
  | finished => cases congrArg Prod.snd resumed
  | waiting s₁ st₁ cursor₁ =>
    cases resumed
    exact Cursor.resume_left plain follows only ran

end Left

/-! ## How many things a task does -/

section Todo

variable {L : Type}

/-- The most steps and answers until the task is done. -/
def Phase.todo (c : Chain L) : Phase L → Nat
  | .called => c.asks + 6
  | .handle _ => c.asks + 5
  | .inLine _ => c.asks + 4
  | .entered _ => c.asks + 3
  | .waiting _ _ cursor => cursor.left + 3
  | .reviewed .. => 2
  | .unlocked .. => 1
  | .done _ => 0

/-- The most steps and answers until all tasks are done. -/
def System.todo (c : Chain L) (sys : System L) : Nat :=
  sys.tasks.sumOf fun _ task => task.phase.todo c

theorem Cycle.todo_phase {c : Chain L} {cycle : Cycle L} {n : Nat} (k : LockId)
    (left : ∀ st cursor, cycle = .waiting st cursor → cursor.left < n) :
    (cycle.phase k).todo c < n + 3 := by
  cases cycle with
  | waiting st cursor => exact Nat.add_lt_add_right (left st cursor rfl) 3
  | finished o => exact Nat.lt_of_lt_of_le (Nat.lt_succ_self 2) (Nat.le_add_left 3 n)

/-- New tasks have everything before them. -/
theorem System.Orderly.todo_callEach {c : Chain L} {sys : System L} (h : sys.Orderly)
    (rs : List ResourceClass) : (sys.callEach rs).todo c = sys.todo c + rs.length * (c.asks + 6) ∧
      (sys.callEach rs).tasks.size = sys.tasks.size + rs.length := by
  induction rs generalizing sys with
  | nil => simp [System.callEach]
  | cons r rs ih =>
    obtain ⟨todo, size⟩ := ih (h.spawn r)
    have first : (sys.spawn r).2.todo c = c.asks + 6 + sys.todo c :=
      Table.sumOf_insert_new h.find?_next _ _
    have grown : (sys.spawn r).2.tasks.size = sys.tasks.size + 1 :=
      Table.size_insert_new h.find?_next _
    rw [first] at todo
    rw [grown] at size
    rw [List.length_cons, Nat.succ_mul]
    constructor
    · refine todo.trans ?_
      omega
    · exact size.trans (by omega)

variable [Limiter L] {w : Wiring} {b : Behaviour} {c : Chain L} {sys sys' : System L} {a : Action}
  {t : TaskId} {r : ResourceClass} {φ : Phase L}

/-- Without an action of its own, a task is at most called. -/
theorem System.act_calls (acted : sys.act w b c a = some sys') (none : a.task? = none) :
    ∃ rs, sys'.tasks = (sys.callEach rs).tasks ∧ sys'.locks = sys.locks := by
  have locks : ∀ rs (sys : System L), (sys.callEach rs).locks = sys.locks := by
    intro rs
    induction rs with
    | nil => exact fun _ => rfl
    | cons r rs ih => exact fun sys => ih (sys.spawn r).2
  cases a with
  | move m =>
    cases acted
    exact ⟨[], rfl, rfl⟩
  | call r =>
    cases acted
    exact ⟨[r], rfl, rfl⟩
  | callAll =>
    cases acted
    exact ⟨_, rfl, locks _ sys⟩
  | receive =>
    obtain ⟨⟨q, line⟩, -, rfl⟩ := Option.map_eq_some_iff.1 acted
    exact ⟨[q.resource], rfl, rfl⟩
  | step t | answer t _ => cases none

/-- With each action of its own a task has less to do. -/
theorem System.Poised.act_todo (poised : sys.Poised b c) (plain : c.Plain)
    (acted : sys.act w b c a = some sys') (own : a.task? = some t)
    (ht : sys.tasks.find? t = some ⟨r, φ⟩) :
    ∃ ψ, sys'.tasks = sys.tasks.insert t ⟨r, ψ⟩ ∧ ψ.todo c < φ.todo c := by
  cases a with
  | step t' =>
    cases own
    cases turn_of_step acted with
    | get found =>
      cases ht.symm.trans found
      exact ⟨_, rfl, Nat.lt_succ_self _⟩
    | arrive found =>
      cases ht.symm.trans found
      refine ⟨_, rfl, ?_⟩
      split
      · exact Nat.add_lt_add_left (by decide) _
      · exact Nat.lt_succ_self _
    | enter found _ =>
      cases ht.symm.trans found
      exact ⟨_, rfl, Nat.lt_succ_self _⟩
    | begin found begun =>
      cases ht.symm.trans found
      refine ⟨_, rfl, Cycle.todo_phase _ ?_⟩
      rintro st cursor rfl
      exact Cycle.begin_left plain begun
    | pass found =>
      cases ht.symm.trans found
      exact ⟨_, rfl, Nat.lt_succ_self _⟩
    | release found =>
      cases ht.symm.trans found
      exact ⟨_, rfl, Nat.lt_succ_self _⟩
  | answer t' x =>
    cases own
    obtain ⟨r', k, st, cursor, s, cycle, found, resumed, rfl⟩ := turn_of_answer acted
    cases ht.symm.trans found
    obtain ⟨⟨d, only⟩, n, follows⟩ := poised _ _ _ found
    refine ⟨_, rfl, Cycle.todo_phase _ ?_⟩
    rintro st' cursor' rfl
    exact Cycle.resume_left plain follows only resumed
  | move _ | call _ | callAll | receive => cases own

/-- In a run each task takes only so many steps and answers. -/
theorem Run.own_actions_le {terms : Terms} {start : System L} {h : History L}
    (run : Run w b c terms start h sys) (plain : c.Plain) (orderly : start.Orderly)
    (idle : start.tasks = ∅) :
    (h.countP fun e => e.2.task?.isSome) + sys.todo c ≤ sys.tasks.size * (c.asks + 6) := by
  induction run with
  | start =>
    have none : start.todo c = 0 := by
      rw [System.todo, idle]
      rfl
    rw [none]
    exact Nat.zero_le _
  | @next h sys a sys' run allowed acted ih =>
    have orderly := run.orderly orderly
    rw [List.countP_append, List.countP_singleton]
    cases own : a.task? with
    | none =>
      obtain ⟨rs, called, -⟩ := System.act_calls acted own
      obtain ⟨todo, size⟩ := orderly.todo_callEach (c := c) rs
      have todo' : sys'.todo c = (sys.callEach rs).todo c := congrArg (Table.sumOf _) called
      rw [todo', todo, called, size, Nat.add_mul]
      simp only [Option.isSome_none, Bool.false_eq_true, if_false]
      omega
    | some t =>
      have poised := run.poised plain.onlyFails fun t r φ found => by
        rw [idle] at found
        cases found
      obtain ⟨r, φ, found⟩ := System.found_own acted own
      obtain ⟨ψ, tasks, less⟩ := poised.act_todo plain acted own found
      have todo : sys'.todo c + φ.todo c = sys.todo c + ψ.todo c := by
        rw [System.todo, tasks]
        exact Table.sumOf_replace found _ _
      rw [tasks, Table.size_replace found]
      simp only [Option.isSome_some, if_true]
      omega

end Todo

/-! ## Free locks -/

section Clear

variable {L : Type} {sys sys' : System L} {t t' : TaskId} {r r' : ResourceClass} {k : LockId}
  {φ ψ : Phase L}

/-- The lock of a class without another task is free. -/
theorem System.Single.free (single : sys.Single) (orderly : sys.Orderly)
    (found : sys.tasks.find? t = some ⟨r, .called⟩) : sys.locks.byClass.find? r = none := by
  cases named : sys.locks.byClass.find? r with
  | none => rfl
  | some k =>
    obtain ⟨t', φ, found', has⟩ := orderly.serves.mapped_iff.1 named
    cases single found found'
    cases found.symm.trans found'
    cases has

/-- No two tasks work with the same lock. -/
theorem System.Single.lock_ne (single : sys.Single) (orderly : sys.Orderly) {j : LockId}
    (found : sys.tasks.find? t = some ⟨r, φ⟩) (found' : sys.tasks.find? t' = some ⟨r', ψ⟩)
    (ne : t' ≠ t) (has : φ.lock? = some k) (has' : ψ.lock? = some j) : j ≠ k := by
  rintro rfl
  cases orderly.serves.unique (orderly.serves.mapped found has)
    (orderly.serves.mapped found' has')
  exact ne (single found' found)

namespace ClassLocks

/-- A lock that nobody holds or stands in line for. -/
def Free (l : ClassLocks) (k : LockId) : Prop :=
  ∃ lock, l.locks.find? k = some lock ∧ lock.holder = none ∧ lock.line = []

variable {l : ClassLocks}

/-- The first task of a class gets a free lock. -/
theorem free_get (none : l.byClass.find? r = none) : (l.get r).2.Free (l.get r).1 := by
  refine ⟨{ handles := 2 }, ?_, rfl, rfl⟩
  simp [get, none, Table.find?_insert]

theorem Free.holds_arrive (h : l.Free k) (t : TaskId) : (l.arrive k t).holds k t = true := by
  obtain ⟨lock, found, holder, line⟩ := h
  simp [arrive, holds, Table.find?_modify, found, holder, line]

theorem find?_arrive_of_ne {j : LockId} (ne : j ≠ k) (t : TaskId) :
    (l.arrive k t).locks.find? j = l.locks.find? j :=
  (Table.find?_modify _ _ _ _).trans (if_neg ne)

theorem find?_pass_of_ne {j : LockId} (ne : j ≠ k) :
    (l.pass k).locks.find? j = l.locks.find? j :=
  (Table.find?_modify _ _ _ _).trans (if_neg ne)

theorem find?_get_of_none (none : l.byClass.find? r = none) {j : LockId} (ne : j ≠ l.next) :
    (l.get r).2.locks.find? j = l.locks.find? j := by
  simp [get, none, Table.find?_insert, ne]

theorem Serves.find?_release_of_ne {tasks : Table TaskId (Task L)} (h : l.Serves tasks)
    {o : Outcome} (found : tasks.find? t = some ⟨r, .unlocked k o⟩) {j : LockId} (ne : j ≠ k) :
    (l.release r k).locks.find? j = l.locks.find? j := by
  have hr : l.byClass.find? r = some k := h.mapped found rfl
  obtain ⟨lock, listed, counted, used⟩ := h.counted hr
  by_cases two : lock.handles = 2
  · rw [release_of_two hr listed two]
    exact (Table.find?_erase _ _ _).trans (if_neg ne)
  · rw [release_of_more listed (by omega)]
    exact (Table.find?_insert _ _ _ _).trans (if_neg ne)

end ClassLocks

/-- Each task that is about to stand in line finds its lock free, and so none stands in line. -/
structure System.Clear (sys : System L) : Prop where
  free : ∀ {t r k}, sys.tasks.find? t = some ⟨r, .handle k⟩ → sys.locks.Free k
  empty : ∀ {t r k}, sys.tasks.find? t ≠ some ⟨r, .inLine k⟩

/-- A task that goes on to `ψ`, which is not a place in line, leaves the locks of others free. -/
theorem System.Clear.put (h : sys.Clear) {l : ClassLocks} {s : Site L} (t : TaskId)
    (r : ResourceClass) (ψ : Phase L) (mine : ∀ k, ψ = .handle k → l.Free k)
    (out : ∀ k, ψ ≠ .inLine k)
    (others : ∀ {t' r' k}, t' ≠ t → sys.tasks.find? t' = some ⟨r', .handle k⟩ →
      l.locks.find? k = sys.locks.locks.find? k) :
    ({ sys with site := s, locks := l }.put t r ψ).Clear where
  free found := by
    rcases Table.find?_insert_cases found with ⟨-, new⟩ | ⟨ne, old⟩
    · cases new
      exact mine _ rfl
    · obtain ⟨lock, listed, idle⟩ := h.free old
      exact ⟨lock, (others ne old).trans listed, idle⟩
  empty found := by
    rcases Table.find?_insert_cases found with ⟨-, new⟩ | ⟨-, old⟩
    · cases new
      exact out _ rfl
    · exact h.empty old

variable [Limiter L] {w : Wiring} {b : Behaviour} {c : Chain L} {a : Action}

theorem System.Clear.turn (h : sys.Clear) (orderly : sys.Orderly) (single : sys.Single)
    (turn : System.Turn w b c sys t sys') : sys'.Clear := by
  cases turn with
  | @get r found =>
    have none := single.free orderly found
    refine h.put t r _ ?_ nofun ?_
    · rintro k ⟨⟩
      exact ClassLocks.free_get none
    · intro t' r' k _ found'
      refine ClassLocks.find?_get_of_none none (Nat.ne_of_lt ?_)
      exact orderly.serves.lock_lt (orderly.serves.mapped found' rfl)
  | @arrive r k found =>
    rw [if_pos ((h.free found).holds_arrive t)]
    refine h.put t r _ nofun nofun ?_
    intro t' r' j ne found'
    exact ClassLocks.find?_arrive_of_ne (single.lock_ne orderly found found' ne rfl rfl) t
  | enter found _ => exact absurd found h.empty
  | @begin r k s cycle found _ =>
    refine h.put t r _ ?_ ?_ fun _ _ => rfl
    · intro j e
      cases cycle <;> cases e
    · intro j e
      cases cycle <;> cases e
  | @pass r k o found =>
    refine h.put t r _ nofun nofun ?_
    intro t' r' j ne found'
    exact ClassLocks.find?_pass_of_ne (single.lock_ne orderly found found' ne rfl rfl)
  | @release r k o found =>
    refine h.put t r _ nofun nofun ?_
    intro t' r' j ne found'
    exact orderly.serves.find?_release_of_ne found
      (single.lock_ne orderly found found' ne rfl rfl)

theorem System.Clear.act (h : sys.Clear) (orderly : sys.Orderly) (single : sys.Single)
    (acted : sys.act w b c a = some sys') : sys'.Clear := by
  cases own : a.task? with
  | none =>
    obtain ⟨rs, called, locks⟩ := System.act_calls acted own
    constructor
    · intro t r k found
      rw [locks]
      rw [called] at found
      rcases System.called_callEach rs found with old | new
      · exact h.free old
      · cases new
    · intro t r k found
      rw [called] at found
      rcases System.called_callEach rs found with old | new
      · exact h.empty old
      · cases new
  | some t =>
    cases a with
    | step t' => exact h.turn orderly single (System.turn_of_step acted)
    | answer t' x =>
      obtain ⟨r, k, st, cursor, s, cycle, found, -, rfl⟩ := System.turn_of_answer acted
      refine h.put t' r _ ?_ ?_ fun _ _ => rfl
      · intro j e
        cases cycle <;> cases e
      · intro j e
        cases cycle <;> cases e
    | move _ | call _ | callAll | receive => cases own

theorem Run.clear {terms : Terms} {start : System L} {h : History L}
    (run : Run w b c terms start h sys) (orderly : start.Orderly) (idle : start.tasks = ∅)
    (single : sys.Single) : sys.Clear := by
  induction run with
  | start =>
    constructor
    · intro t r k found
      rw [idle] at found
      cases found
    · intro t r k found
      rw [idle] at found
      cases found
  | next run _ acted ih =>
    have orderly := run.orderly orderly
    have before := orderly.single_before acted single
    exact (ih before).act orderly before acted

/-- If each class has one task, every task that is not done takes a step, or waits for an answer. -/
theorem Run.goes_on {terms : Terms} {start : System L} {h : History L}
    (run : Run w b c terms start h sys) (orderly : start.Orderly) (idle : start.tasks = ∅)
    (single : sys.Single) (found : sys.tasks.find? t = some ⟨r, φ⟩) :
    (∃ o, φ = .done o) ∨ (∃ sys', sys.step w b c t = some sys') ∨ ∃ q, sys.request? t = some q := by
  cases φ with
  | done o => exact .inl ⟨o, rfl⟩
  | called => exact .inr (.inl ⟨_, (System.Turn.get found).step_eq⟩)
  | handle k => exact .inr (.inl ⟨_, (System.Turn.arrive found).step_eq⟩)
  | inLine k => exact absurd found (run.clear orderly idle single).empty
  | entered k => exact .inr (.inl ⟨_, (System.Turn.begin found rfl).step_eq⟩)
  | waiting k st cursor => exact .inr (.inr ⟨_, System.request?_of_cycle? found rfl⟩)
  | reviewed k o => exact .inr (.inl ⟨_, (System.Turn.pass found).step_eq⟩)
  | unlocked k o => exact .inr (.inl ⟨_, (System.Turn.release found).step_eq⟩)

end Clear

end Muster
