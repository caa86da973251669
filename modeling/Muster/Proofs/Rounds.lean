import Muster.Host.Basic
import Muster.Proofs.Progress

/-!
# Rounds

A host lets the reviews that it has started go on in rounds. In a round every task that is not done
has a turn: it gets the answer it waits for and goes on until it waits again or is done. No class
has two tasks, so that no task stands in line for a lock.

With each turn that does not end it a review has asked another provider. So all tasks are done after
as many rounds as the chain has providers, and one more.

**Main statement.** `Host.reviewAll_reaches`: a pass over all classes with work is a run, at the end
of which all its reviews are done.
-/

namespace Muster

open Relation

/-! ## What a task does in a turn -/

section Steps

variable {L : Type} [Limiter L] {w : Wiring} {b : Behaviour} {c : Chain L} {sys sys' : System L}
  {t : TaskId} {r : ResourceClass}

/-- Where a task comes to rest with its review. -/
def Cycle.resting (k : LockId) : Cycle L → Phase L
  | .waiting st cursor => .waiting k st cursor
  | .finished o => .done o

theorem System.Turn.steps_eq (h : Turn w b c sys t sys') (n : Nat) :
    sys.steps w b c t (n + 1) = sys'.steps w b c t n := by
  simp only [steps, h.step_eq]

/-- A task with a free lock takes it. -/
theorem System.Turn.arrive_free {k : LockId} (found : sys.tasks.find? t = some ⟨r, .handle k⟩)
    (holds : (sys.locks.arrive k t).holds k t = true) :
    Turn w b c sys t ({ sys with locks := sys.locks.arrive k t }.put t r (.entered k)) := by
  have turn := Turn.arrive (w := w) (b := b) (c := c) found
  rwa [if_pos holds] at turn

theorem System.steps_still (still : sys.step w b c t = none) (n : Nat) :
    sys.steps w b c t n = sys := by
  cases n with
  | zero => rfl
  | succ n => simp only [steps, still]

/-- A task at rest stays there. -/
theorem System.find?_steps_resting {k : LockId} {cycle : Cycle L}
    (found : sys.tasks.find? t = some ⟨r, cycle.resting k⟩) (n : Nat) :
    (sys.steps w b c t n).tasks.find? t = some ⟨r, cycle.resting k⟩ := by
  have still : sys.step w b c t = none := by
    cases cycle <;> simp [step, found, Cycle.resting]
  rw [steps_still still]
  exact found

/-- A task that is through with its review lets go of the lock. -/
theorem System.find?_steps_phase {k : LockId} {cycle : Cycle L}
    (found : sys.tasks.find? t = some ⟨r, cycle.phase k⟩) (n : Nat) :
    (sys.steps w b c t (n + 2)).tasks.find? t = some ⟨r, cycle.resting k⟩ := by
  cases cycle with
  | waiting st cursor => exact find?_steps_resting found (n + 2)
  | finished o =>
    rw [(Turn.pass found).steps_eq, (Turn.release (find?_put _ _ _ _)).steps_eq]
    refine find?_steps_resting ?_ n
    exact find?_put _ _ _ _

theorem System.find?_steps_entered {k : LockId} {s : Site L} {cycle : Cycle L}
    (found : sys.tasks.find? t = some ⟨r, .entered k⟩)
    (begun : Cycle.begin w b c r sys.site = (s, cycle)) (n : Nat) :
    (sys.steps w b c t (n + 3)).tasks.find? t = some ⟨r, cycle.resting k⟩ := by
  rw [(Turn.begin found begun).steps_eq]
  exact find?_steps_phase (find?_put _ _ _ _) n

/-- A task that has just been called begins its review. -/
theorem System.find?_advance_called (free : sys.locks.byClass.find? r = none)
    (found : sys.tasks.find? t = some ⟨r, .called⟩) :
    ∃ k s cycle, Cycle.begin w b c r sys.site = (s, cycle) ∧
      (sys.advance w b c t).tasks.find? t = some ⟨r, cycle.resting k⟩ := by
  rcases begun : Cycle.begin w b c r sys.site with ⟨s, cycle⟩
  refine ⟨(sys.locks.get r).1, s, cycle, rfl, ?_⟩
  have arrives := Turn.arrive_free (w := w) (b := b) (c := c)
    (find?_put { sys with locks := (sys.locks.get r).2 } t r (.handle (sys.locks.get r).1))
    ((ClassLocks.free_get free).holds_arrive t)
  unfold advance
  rw [(Turn.get found).steps_eq, arrives.steps_eq]
  refine find?_steps_entered (s := s) ?_ ?_ 1
  · exact find?_put _ _ _ _
  · exact begun

/-- A task that gets its answer goes on with its review. -/
theorem System.find?_advance_answered {k : LockId} {st : ReviewState} {cursor : Cursor L}
    (found : sys.tasks.find? t = some ⟨r, .waiting k st cursor⟩) (a : Answer) :
    ∃ s cycle sys', Cycle.resume w b r st cursor a sys.site = (s, cycle) ∧
      sys.answer w b t a = some sys' ∧
      (sys'.advance w b c t).tasks.find? t = some ⟨r, cycle.resting k⟩ := by
  rcases resumed : Cycle.resume w b r st cursor a sys.site with ⟨s, cycle⟩
  refine ⟨s, cycle, { sys with site := s }.put t r (cycle.phase k), rfl, ?_, ?_⟩
  · simp only [answer, found, resumed, afterReview_eq found]
  · exact find?_steps_phase (find?_put _ _ _ _) 4

end Steps

/-! ## Runs of reviews alone -/

section Reached

variable {w : Wiring} {b : Behaviour} {m : Manner} {c : Chain HostLimiter}
  {start sys sys' : System HostLimiter} {a : Action} {t t' : TaskId} {r : ResourceClass}

/-- The system has come about in a run in which nobody but reviews did anything and providers
answered in the manner `m`, and no class has two tasks. -/
structure System.Reached (w : Wiring) (b : Behaviour) (m : Manner) (c : Chain HostLimiter)
    (sys start : System HostLimiter) : Prop where
  run : ∃ h, Run w b c .undisturbed start h sys ∧ h.Follows m
  single : sys.Single
  orderly : sys.Orderly
  poised : sys.Poised b c

/-- The task `t` does something. If it gets an answer, then one in the manner `m`. -/
def System.Acts (w : Wiring) (b : Behaviour) (m : Manner) (c : Chain HostLimiter) (t : TaskId)
    (sys sys' : System HostLimiter) : Prop :=
  ∃ a, a.task? = some t ∧ sys.act w b c a = some sys' ∧
    ∀ t answer q, a = .answer t answer → sys.request? t = some q →
      m.Allows (heard sys.site.calls q.provider.id q.resource) q answer

theorem System.Reached.refl (orderly : start.Orderly) (idle : start.tasks = ∅) :
    start.Reached w b m c start where
  run := ⟨[], .start, nofun⟩
  single r t t' φ ψ found := by
    rw [idle] at found
    cases found
  orderly := orderly
  poised t r φ found := by
    rw [idle] at found
    cases found

theorem System.Reached.act (h : sys.Reached w b m c start) (plain : c.Plain)
    (acted : sys.act w b c a = some sys') (quiet : ∀ move, a ≠ .move move)
    (allowed : ∀ t answer q, a = .answer t answer → sys.request? t = some q →
      m.Allows (heard sys.site.calls q.provider.id q.resource) q answer)
    (single : sys'.Single) : sys'.Reached w b m c start where
  run := by
    obtain ⟨h, run, follows⟩ := h.run
    refine ⟨h ++ [(sys, a)], .next run ?_ acted, ?_⟩
    · cases a with
      | move move => exact absurd rfl (quiet move)
      | answer => exact fun _ _ => trivial
      | call | callAll | receive | step => trivial
    · intro sys' t answer q mem
      rcases List.mem_append.1 mem with old | new
      · exact follows sys' t answer q old
      · cases List.mem_singleton.1 new
        exact allowed t answer q rfl
  single := single
  orderly := h.orderly.act acted
  poised := h.poised.act plain.onlyFails acted

/-- What a task does leaves the tasks of each class as they were. -/
theorem System.Single.act (single : sys.Single) (acted : sys.act w b c a = some sys')
    (own : a.task? = some t) : sys'.Single := by
  have back : ∀ {t' r φ}, sys'.tasks.find? t' = some ⟨r, φ⟩ →
      ∃ ψ, sys.tasks.find? t' = some ⟨r, ψ⟩ := by
    intro t' r φ found
    by_cases e : t' = t
    · subst e
      obtain ⟨r', ψ, before⟩ := found_own acted own
      obtain ⟨χ, -, after⟩ := act_own acted own before
      cases after.symm.trans found
      exact ⟨ψ, before⟩
    · exact ⟨φ, (act_same acted own e).symm.trans found⟩
  intro r t₁ t₂ φ ψ found₁ found₂
  obtain ⟨_, before₁⟩ := back found₁
  obtain ⟨_, before₂⟩ := back found₂
  exact single before₁ before₂

/-- However much a task does, it is part of the run and leaves other tasks alone. -/
theorem System.Reached.acts (h : sys.Reached w b m c start) (plain : c.Plain)
    (acts : ReflTransGen (Acts w b m c t) sys sys') : sys'.Reached w b m c start ∧
      ∀ t' ≠ t, sys'.tasks.find? t' = sys.tasks.find? t' := by
  induction acts with
  | refl => exact ⟨h, fun _ _ => rfl⟩
  | tail _ acted ih =>
    obtain ⟨reached, same⟩ := ih
    obtain ⟨a, own, acted, allowed⟩ := acted
    refine ⟨reached.act plain acted ?_ allowed (reached.single.act acted own), fun t' ne => ?_⟩
    · rintro move rfl
      cases own
    · exact (act_same acted own ne).trans (same t' ne)

theorem System.steps_acts (n : Nat) (sys : System HostLimiter) :
    ReflTransGen (Acts w b m c t) sys (sys.steps w b c t n) := by
  induction n generalizing sys with
  | zero => exact .refl
  | succ n ih =>
    simp only [steps]
    split
    · rename_i sys' stepped
      exact .head ⟨.step t, rfl, stepped, nofun⟩ (ih sys')
    · exact .refl

end Reached

/-! ## Turns of a host -/

theorem Host.requestBound_eq (h : Host) : h.requestBound = h.chain.asks := by
  unfold requestBound
  induction h.chain with
  | nil => rfl
  | cons strategy rest ih =>
    rw [List.foldr_cons, ih]
    cases strategy <;> rfl

section Turns

variable {h : Host} {m : Manner} {start : System HostLimiter} {t : TaskId} {r : ResourceClass}
  {n : Nat}

/-- What providers answer late is answered in the manner `m` as well. -/
def Host.Delivers (h : Host) (m : Manner) : Prop :=
  ∀ calls created q, h.behaviour.respond calls created q = none →
    ∀ told n, m.Allows told q (Conduct.deliver n q)

/-- The system is reached in a run of the host's reviews alone. -/
abbrev Host.Reaches (h : Host) (m : Manner) (start sys : System HostLimiter) : Prop :=
  sys.Reached h.wiring h.behaviour m h.chain start

/-- The task has not started or waits, and it is done after `n` turns; or it is done. -/
def Phase.Within {L : Type} (c : Chain L) (n : Nat) : Phase L → Prop
  | .called => c.asks < n
  | .waiting _ _ cursor => cursor.left < n
  | .done _ => True
  | _ => False

/-- The task `t` is one of the class `r` and is done after `n` turns. -/
def System.Within {L : Type} (c : Chain L) (n : Nat) (sys : System L) (t : TaskId)
    (r : ResourceClass) : Prop :=
  ∃ φ, sys.tasks.find? t = some ⟨r, φ⟩ ∧ φ.Within c n

theorem Phase.Within.mono {L : Type} {c : Chain L} {φ : Phase L} (h : φ.Within c n) :
    φ.Within c (n + 1) := by
  cases φ with
  | called | waiting => exact Nat.lt_succ_of_lt h
  | done => trivial
  | handle | inLine | entered | reviewed | unlocked => exact h

/-- With its review a task comes to rest before its turns are over. -/
theorem Cycle.within_resting {L : Type} {c : Chain L} (cycle : Cycle L) (k : LockId)
    (left : ∀ st cursor, cycle = .waiting st cursor → cursor.left < n) :
    (cycle.resting k).Within c n := by
  cases cycle with
  | waiting st cursor => exact left st cursor rfl
  | finished o => trivial

namespace Host

/-- A turn is something that its task does. -/
theorem turn_acts (delivers : h.Delivers m) (poised : h.system.Poised h.behaviour h.chain)
    (t : TaskId) : ∃ sys, h.turn t = { h with system := sys } ∧
      ReflTransGen (System.Acts h.wiring h.behaviour m h.chain t) h.system sys := by
  refine ⟨_, rfl, ?_⟩
  cases asked : h.system.request? t with
  | none => exact System.steps_acts 6 h.system
  | some q =>
    cases answered : h.system.answer h.wiring h.behaviour t (h.deliver q) with
    | none =>
      simp only [answered]
      exact System.steps_acts 6 h.system
    | some sys =>
      simp only [answered]
      refine .head ⟨.answer t (h.deliver q), rfl, answered, ?_⟩ (System.steps_acts 6 sys)
      rintro _ _ q' ⟨⟩ asked'
      obtain ⟨r, k, st, cursor, s, cycle, found, -⟩ := System.turn_of_answer answered
      cases asked.symm.trans asked'
      cases (System.request?_of_cycle? found rfl).symm.trans asked
      obtain ⟨-, _, follows⟩ := poised t r _ found
      obtain ⟨calls, created, silent⟩ := follows.silent
      exact delivers calls created _ silent _ _

/-- Each turn brings a task nearer to its end. -/
theorem turn_within (plain : h.chain.Plain) (reached : h.Reaches m start h.system)
    (within : h.system.Within h.chain (n + 1) t r) : (h.turn t).system.Within h.chain n t r := by
  obtain ⟨φ, found, within⟩ := within
  cases φ with
  | called =>
    have free := reached.single.free reached.orderly found
    obtain ⟨k, s, cycle, begun, after⟩ := System.find?_advance_called (w := h.wiring)
      (b := h.behaviour) (c := h.chain) free found
    have silent : h.system.request? t = none := by
      simp only [System.request?, found]
      rfl
    refine ⟨_, ?_, cycle.within_resting k ?_⟩
    · simp only [turn, silent]
      exact after
    · rintro st cursor rfl
      have left := Cycle.begin_left plain begun
      have few : h.chain.asks < n + 1 := within
      show cursor.left < n
      omega
  | waiting k st cursor =>
    have asked := System.request?_of_cycle? found rfl
    obtain ⟨⟨d, only⟩, _, follows⟩ := reached.poised t r _ found
    obtain ⟨s, cycle, sys, resumed, answered, after⟩ := System.find?_advance_answered
      (w := h.wiring) (b := h.behaviour) (c := h.chain) found (h.deliver cursor.pause.request)
    refine ⟨_, ?_, cycle.within_resting k ?_⟩
    · simp only [turn, asked, answered]
      exact after
    · rintro st' cursor' rfl
      have left := Cycle.resume_left plain follows only resumed
      have few : cursor.left < n + 1 := within
      show cursor'.left < n
      omega
  | done o =>
    have silent : h.system.request? t = none := by
      simp only [System.request?, found]
      rfl
    have still : h.system.step h.wiring h.behaviour h.chain t = none := by
      simp only [System.step, found]
    refine ⟨.done o, ?_, trivial⟩
    simp only [turn, silent, System.advance, System.steps_still still]
    exact found
  | handle | inLine | entered | reviewed | unlocked => exact within.elim

/-- Turns of several tasks bring each of them nearer to its end, and leave others where they are. -/
theorem turns_within (plain : h.chain.Plain) (delivers : h.Delivers m)
    (reached : h.Reaches m start h.system) (ts : List TaskId) :
    ∃ sys, ts.foldl turn h = { h with system := sys } ∧ h.Reaches m start sys ∧
      ∀ {n t r}, h.system.Within h.chain n t r ∨ t ∈ ts ∧ h.system.Within h.chain (n + 1) t r →
        sys.Within h.chain n t r := by
  induction ts generalizing h with
  | nil =>
    refine ⟨_, rfl, reached, ?_⟩
    rintro n t r (within | ⟨mem, -⟩)
    · exact within
    · cases mem
  | cons t₀ ts ih =>
    obtain ⟨mid, turned, acts⟩ := turn_acts delivers reached.poised t₀
    obtain ⟨reached', same⟩ := reached.acts plain acts
    have once : ∀ {n r}, h.system.Within h.chain (n + 1) t₀ r → mid.Within h.chain n t₀ r := by
      intro n r within
      have nearer := turn_within plain reached within
      rwa [turned] at nearer
    obtain ⟨sys, frame, after, nearer⟩ := ih (h := { h with system := mid }) plain delivers reached'
    refine ⟨sys, (congrArg (ts.foldl turn) turned).trans frame, after, ?_⟩
    intro n t r within
    refine nearer ?_
    by_cases e : t = t₀
    · subst e
      refine .inl (once ?_)
      rcases within with ⟨φ, found, within⟩ | ⟨-, within⟩
      · exact ⟨φ, found, within.mono⟩
      · exact within
    · have stays : ∀ {n}, h.system.Within h.chain n t r → mid.Within h.chain n t r := by
        rintro n ⟨φ, found, within⟩
        exact ⟨φ, (same t e).trans found, within⟩
      rcases within with within | ⟨mem, within⟩
      · exact .inl (stays within)
      · exact .inr ⟨(List.mem_cons.1 mem).resolve_left e, stays within⟩

/-- After that many rounds all tasks are done. -/
theorem rounds_done (plain : h.chain.Plain) (delivers : h.Delivers m)
    (reached : h.Reaches m start h.system) {ts : List TaskId} {rs : List ResourceClass}
    (within : List.Forall₂ (h.system.Within h.chain n) ts rs) :
    ∃ sys, rounds n ts h = { h with system := sys } ∧ h.Reaches m start sys ∧
      List.Forall₂ (fun t r => ∃ o, sys.tasks.find? t = some ⟨r, .done o⟩) ts rs := by
  induction n generalizing h with
  | zero =>
    refine ⟨_, rfl, reached, within.imp ?_⟩
    rintro t r ⟨φ, found, within⟩
    cases φ with
    | done o => exact ⟨o, found⟩
    | called | waiting => exact absurd within (Nat.not_lt_zero _)
    | handle | inLine | entered | reviewed | unlocked => exact within.elim
  | succ n ih =>
    have listed := (List.forall₂_and_left _ _).2 ⟨fun t (mem : t ∈ ts) => mem, within⟩
    have finished : ∀ {t r}, h.system.Within h.chain (n + 1) t r →
        (h.system.outcome? t).isNone = false → ∃ o, h.system.tasks.find? t = some ⟨r, .done o⟩ := by
      rintro t r ⟨φ, found, -⟩ some
      simp only [System.outcome?, found] at some
      cases φ with
      | done o => exact ⟨o, found⟩
      | _ => cases some
    simp only [rounds]
    split
    · rename_i none
      refine ⟨_, rfl, reached, listed.imp ?_⟩
      rintro t r ⟨mem, within⟩
      have ended := List.filter_eq_nil_iff.1 none t mem
      exact finished within (eq_false_of_ne_true ended)
    · obtain ⟨mid, frame, reached', nearer⟩ := turns_within plain delivers reached
        (ts.filter fun t => (h.system.outcome? t).isNone)
      rw [frame]
      refine ih (h := { h with system := mid }) plain delivers reached' (listed.imp ?_)
      rintro t r ⟨mem, within⟩
      refine nearer ?_
      by_cases isOpen : (h.system.outcome? t).isNone = true
      · exact .inr ⟨List.mem_filter.2 ⟨mem, isOpen⟩, within⟩
      · obtain ⟨o, found⟩ := finished within (eq_false_of_ne_true isOpen)
        exact .inl ⟨_, found, trivial⟩

end Host

end Turns

/-! ## A pass over all classes -/

section Pass

variable {w : Wiring} {b : Behaviour} {m : Manner} {c : Chain HostLimiter}
  {sys start : System HostLimiter} {h : Host} {rs : List ResourceClass}

/-- Each of the classes gets a task. -/
theorem System.Orderly.called {L : Type} {sys : System L} (h : sys.Orderly)
    (rs : List ResourceClass) : List.Forall₂
      (fun t r => (sys.callEach rs).tasks.find? t = some ⟨r, .called⟩)
      (List.range' sys.next rs.length) rs := by
  induction rs generalizing sys with
  | nil => exact .nil
  | cons r rs ih =>
    refine .cons ?_ (ih (h.spawn r))
    refine (h.spawn r).find?_callEach ?_ rs
    exact (Table.find?_insert _ _ _ _).trans (if_pos rfl)

/-- Classes without tasks, each of them once, are called in a run of reviews alone. -/
theorem System.Reached.callEach (h : sys.Reached w b m c start) (plain : c.Plain) (once : rs.Nodup)
    (free : ∀ r ∈ rs, ∀ t φ, sys.tasks.find? t ≠ some ⟨r, φ⟩) :
    (sys.callEach rs).Reached w b m c start := by
  induction rs generalizing sys with
  | nil => exact h
  | cons r rs ih =>
    obtain ⟨other, once⟩ := List.nodup_cons.1 once
    have mine := free r List.mem_cons_self
    refine ih (h.act (a := .call r) plain rfl nofun nofun ?_) once ?_
    · intro r' t t' φ ψ found found'
      rcases Table.find?_insert_cases found with ⟨rfl, new⟩ | ⟨-, old⟩ <;>
        rcases Table.find?_insert_cases found' with ⟨rfl, new'⟩ | ⟨-, old'⟩
      · rfl
      · cases new
        exact absurd old' (mine _ _)
      · cases new'
        exact absurd old (mine _ _)
      · exact h.single old old'
    · intro r' mem t φ found
      rcases Table.find?_insert_cases found with ⟨-, new⟩ | ⟨-, old⟩
      · cases new
        exact other mem
      · exact free r' (List.mem_cons_of_mem _ mem) t φ old

namespace Host

theorem spawn_eq (h : Host) (rs : List ResourceClass) : h.spawn rs =
    (List.range' h.system.next rs.length, { h with system := h.system.callEach rs }) := by
  have onward : ∀ (ts : List TaskId) (h : Host), rs.foldl
      (fun x r => (x.1 ++ [(x.2.system.spawn r).1], { x.2 with system := (x.2.system.spawn r).2 }))
      (ts, h) = (ts ++ List.range' h.system.next rs.length,
        { h with system := h.system.callEach rs }) := by
    induction rs with
    | nil => exact fun ts h => congrArg (·, h) (List.append_nil ts).symm
    | cons r rs ih =>
      intro ts h
      refine (ih _ _).trans (congrArg (·, _) ?_)
      exact List.append_assoc ts [h.system.next] _
  exact onward [] h

theorem forget_site {L : Type} (ts : List TaskId) (sys : System L) :
    (ts.foldl System.forget sys).site = sys.site := by
  induction ts generalizing sys with
  | nil => rfl
  | cons t ts ih => exact ih (sys.forget t)

/-- The results of tasks that are done. -/
theorem collected {ts : List TaskId} (done : List.Forall₂
    (fun t r => ∃ o, sys.tasks.find? t = some ⟨r, .done o⟩) ts rs) : List.Forall₂
      (fun r o => ∃ t, sys.tasks.find? t = some ⟨r, .done o⟩) rs (ts.filterMap sys.outcome?) := by
  induction done with
  | nil => exact .nil
  | @cons t r ts rs first _ ih =>
    obtain ⟨o, found⟩ := first
    have outcome : sys.outcome? t = some o := by
      simp only [System.outcome?, found]
      rfl
    rw [List.filterMap_cons_some outcome]
    exact .cons ⟨t, found⟩ ih

/-- Reviews side by side make up a run, at the end of which they are done. -/
theorem reviewConcurrently_reaches (plain : h.chain.Plain) (delivers : h.Delivers m)
    (reached : h.Reaches m start h.system) (once : rs.Nodup)
    (free : ∀ r ∈ rs, ∀ t φ, h.system.tasks.find? t ≠ some ⟨r, φ⟩) :
    ∃ sys, h.Reaches m start sys ∧ (h.reviewConcurrently rs).2.site = sys.site ∧ List.Forall₂
      (fun r o => ∃ t, sys.tasks.find? t = some ⟨r, .done o⟩) rs (h.reviewConcurrently rs).1 := by
  let ts := List.range' h.system.next rs.length
  let called : Host := { h with system := h.system.callEach rs }
  let n := ts.length * (called.requestBound + 1) + 1
  have within : List.Forall₂ (called.system.Within called.chain n) ts rs := by
    have listed := (List.forall₂_and_left _ _).2
      ⟨fun t (mem : t ∈ ts) => mem, reached.orderly.called rs⟩
    refine listed.imp ?_
    rintro t r ⟨mem, found⟩
    have some : 0 < ts.length := List.length_pos_of_mem mem
    have enough := Nat.le_mul_of_pos_left (called.requestBound + 1) some
    refine ⟨.called, found, ?_⟩
    show called.chain.asks < ts.length * (called.requestBound + 1) + 1
    rw [← requestBound_eq]
    omega
  obtain ⟨sys, frame, ended, done⟩ := rounds_done (h := called) plain delivers
    (reached.callEach plain once free) within
  have reviewed : h.reviewConcurrently rs = (rounds n ts called).collect ts := by
    simp only [reviewConcurrently, h.spawn_eq rs]
    rfl
  rw [reviewed, frame]
  exact ⟨sys, ended, forget_site ts sys, collected done⟩

/-- A pass over all classes with work makes up a run, at the end of which all reviews are done. -/
theorem reviewAll_reaches (plain : h.chain.Plain) (delivers : h.Delivers m)
    (orderly : h.system.Orderly) (idle : h.system.tasks = ∅) : ∃ sys outcomes,
      h.Reaches m h.system sys ∧ h.reviewAll.2.site = sys.site ∧
      h.reviewAll.1 = outcomes.foldl ReviewStats.add {} ∧ List.Forall₂
        (fun r o => ∃ t, sys.tasks.find? t = some ⟨r, .done o⟩)
        h.site.queue.pendingClasses outcomes := by
  have free : ∀ r ∈ h.site.queue.pendingClasses, ∀ t φ, h.system.tasks.find? t ≠ some ⟨r, φ⟩ := by
    intro r _ t φ
    rw [idle]
    exact nofun
  obtain ⟨sys, reached, site, outcomes⟩ := reviewConcurrently_reaches plain delivers
    (.refl orderly idle) (Table.keys_nodup _) free
  exact ⟨sys, _, reached, site, rfl, outcomes⟩

end Host

end Pass

end Muster
