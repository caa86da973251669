import Muster.Proofs.Stride
import Muster.Proofs.Tables
import Muster.Review.System

/-!
# Runs

A run is any order of the things that happen to a system: others use its site, reviews are called
one by one or for all classes with work, the worker takes requests off the line, tasks take their
steps, and providers answer. Reviews wait for the locks of their classes and for providers, and
anything may happen in between.

The history of a run holds every action together with the system that it met. What a run has shown
so far, such as the snapshots that its reviews took, is read off the history.
-/

namespace Muster

/-- What others do to a site between the steps of its tasks. -/
inductive Move where
  | submit (item : WorkItem)
  | submitBuildable (item : WorkItem)
  | makeBuildable (id : WorkItemId)
  | cancel (id : WorkItemId)
  | assign (id : WorkItemId)
  | online (id : PlannedId)
  /-- Capacity is given back to the limiter. -/
  | release (id : PlannedId)
  | runReadyWork (r : ResourceClass)
  /-- A review is asked for. -/
  | request (r : ResourceClass) (source : ReviewSource) (item : Option WorkItemId)

/-- What can happen to a system. -/
inductive Action where
  | move (m : Move)
  /-- A review of a class is called. -/
  | call (r : ResourceClass)
  /-- A review of each class with work is called. -/
  | callAll
  /-- The worker takes a request off the line and calls a review of its class. -/
  | receive
  /-- A task takes its next step. -/
  | step (t : TaskId)
  /-- A task gets the answer it waits for. -/
  | answer (t : TaskId) (a : Answer)

variable {L : Type}

/-- Calls a review of each class. -/
def System.callEach (sys : System L) (rs : List ResourceClass) : System L :=
  rs.foldl (fun sys r => (sys.spawn r).2) sys

section Acts

variable [Limiter L]

def Move.apply (w : Wiring) (b : Behaviour) (s : Site L) : Move → Site L
  | submit item => s.submit item
  | submitBuildable item => s.submitBuildable w b item
  | makeBuildable id => (s.makeBuildable w b id).2
  | cancel id => (s.cancel id).2
  | assign id => (s.assign id).2
  | online id => (s.online id).2
  | release id => { s with limiter := Limiter.release s.limiter id }
  | runReadyWork r => s.runReadyWork r
  | request r source item => (s.request w r source item).2

/-- What an action makes of a system, if the system is ready for it. -/
def System.act (w : Wiring) (b : Behaviour) (c : Chain L) (sys : System L) :
    Action → Option (System L)
  | .move m => some { sys with site := m.apply w b sys.site }
  | .call r => some (sys.spawn r).2
  | .callAll => some (sys.callEach sys.site.queue.pendingClasses)
  | .receive => sys.site.line.receive.map fun (q, line) =>
      ({ sys with site := { sys.site with line } }.spawn q.resource).2
  | .step t => sys.step w b c t
  | .answer t a => sys.answer w b t a

end Acts

/-- What is allowed in a run: what others may do, and what providers may answer. -/
structure Terms where
  moves : Move → Prop := fun _ => True
  answers : Answering := fun _ _ => True

/-- The action is allowed. -/
def Terms.Allow (terms : Terms) (sys : System L) : Action → Prop
  | .move m => terms.moves m
  | .answer t a => ∀ q, sys.request? t = some q → terms.answers q a
  | _ => True

/-- Without terms, everything is allowed. -/
theorem Terms.allow_free (sys : System L) (a : Action) : Terms.Allow {} sys a := by
  cases a with
  | answer t a => exact fun _ _ => trivial
  | move _ | call _ | callAll | receive | step _ => trivial

/-- What happened, oldest first, each with the system that it met. -/
abbrev History (L : Type) := List (System L × Action)

/-- A run from `start`: its history and the system that it has led to. -/
inductive Run [Limiter L] (w : Wiring) (b : Behaviour) (c : Chain L) (terms : Terms)
    (start : System L) : History L → System L → Prop
  | start : Run w b c terms start [] start
  | next {h sys a sys'} : Run w b c terms start h sys → terms.Allow sys a →
      sys.act w b c a = some sys' → Run w b c terms start (h ++ [(sys, a)]) sys'

/-- A system without work, capacity and tasks. -/
def System.idle (limiter : L) (line : RequestLine) : System L := { site := { limiter, line } }

/-! ## What a task does -/

/-- Where a review leaves its task, which holds the lock `k`. -/
def Cycle.phase (k : LockId) : Cycle L → Phase L
  | .waiting st cursor => .waiting k st cursor
  | .finished outcome => .reviewed k outcome

/-- Puts a task that reviews the class `r` into a phase. -/
def System.put (sys : System L) (t : TaskId) (r : ResourceClass) (φ : Phase L) : System L :=
  { sys with tasks := sys.tasks.insert t ⟨r, φ⟩ }

/-- What a task can do by itself. -/
inductive System.Turn [Limiter L] (w : Wiring) (b : Behaviour) (c : Chain L) (sys : System L)
    (t : TaskId) : System L → Prop
  | get {r} : sys.tasks.find? t = some ⟨r, .called⟩ →
      Turn w b c sys t ({ sys with locks := (sys.locks.get r).2 }.put t r
        (.handle (sys.locks.get r).1))
  | arrive {r k} : sys.tasks.find? t = some ⟨r, .handle k⟩ →
      Turn w b c sys t ({ sys with locks := sys.locks.arrive k t }.put t r
        (if (sys.locks.arrive k t).holds k t then .entered k else .inLine k))
  | enter {r k} : sys.tasks.find? t = some ⟨r, .inLine k⟩ → sys.locks.holds k t = true →
      Turn w b c sys t (sys.put t r (.entered k))
  | begin {r k s cycle} : sys.tasks.find? t = some ⟨r, .entered k⟩ →
      Cycle.begin w b c r sys.site = (s, cycle) →
      Turn w b c sys t ({ sys with site := s }.put t r (cycle.phase k))
  | pass {r k o} : sys.tasks.find? t = some ⟨r, .reviewed k o⟩ →
      Turn w b c sys t ({ sys with locks := sys.locks.pass k }.put t r (.unlocked k o))
  | release {r k o} : sys.tasks.find? t = some ⟨r, .unlocked k o⟩ →
      Turn w b c sys t ({ sys with locks := sys.locks.release r k }.put t r (.done o))

namespace System

theorem setPhase_eq (sys : System L) {t : TaskId} {r : ResourceClass} {φ : Phase L}
    (ht : sys.tasks.find? t = some ⟨r, φ⟩) (ψ : Phase L) : sys.setPhase t ψ = sys.put t r ψ := by
  unfold setPhase put
  rw [Table.modify_eq_insert ht]

theorem afterReview_eq {sys : System L} {t : TaskId} {r : ResourceClass} {φ : Phase L}
    (ht : sys.tasks.find? t = some ⟨r, φ⟩) (k : LockId) (s : Site L) (cycle : Cycle L) :
    sys.afterReview t k (s, cycle) = { sys with site := s }.put t r (cycle.phase k) := by
  have put := fun ψ => setPhase_eq { sys with site := s } ht ψ
  cases cycle with
  | waiting st cursor => exact put _
  | finished o => exact put _

variable [Limiter L] {w : Wiring} {b : Behaviour} {c : Chain L}

theorem turn_of_step {sys sys' : System L} {t : TaskId} (h : sys.step w b c t = some sys') :
    Turn w b c sys t sys' := by
  simp only [step] at h
  split at h
  · cases h
  · rename_i task ht
    obtain ⟨r, φ⟩ := task
    have put := fun locks ψ => setPhase_eq { sys with locks } ht ψ
    cases φ with
    | called =>
      simp only [put] at h
      cases h
      exact .get ht
    | handle k =>
      simp only [put] at h
      cases h
      exact .arrive ht
    | inLine k =>
      simp only at h
      split at h
      · rename_i holds
        rw [setPhase_eq sys ht] at h
        cases h
        exact .enter ht holds
      · cases h
    | entered k =>
      rcases hc : Cycle.begin w b c r sys.site with ⟨s, cycle⟩
      simp only [hc, afterReview_eq ht] at h
      cases h
      exact .begin ht hc
    | waiting k st cursor => cases h
    | reviewed k o =>
      simp only [put] at h
      cases h
      exact .pass ht
    | unlocked k o =>
      simp only [put] at h
      cases h
      exact .release ht
    | done o => cases h

/-- What a task can do by itself is its next step. -/
theorem Turn.step_eq {sys sys' : System L} {t : TaskId} (h : Turn w b c sys t sys') :
    sys.step w b c t = some sys' := by
  cases h with
  | get found | arrive found | pass found | release found =>
    have put := fun locks ψ => setPhase_eq { sys with locks } found ψ
    simp only [step, found, put]
  | enter found holds => simp only [step, found, if_pos holds, setPhase_eq sys found]
  | begin found begun => simp only [step, found, begun, afterReview_eq found]

/-- An answer is given to a task that waits for one. -/
theorem turn_of_answer {sys sys' : System L} {t : TaskId} {a : Answer}
    (h : sys.answer w b t a = some sys') :
    ∃ r k st cursor s cycle, sys.tasks.find? t = some ⟨r, .waiting k st cursor⟩ ∧
      Cycle.resume w b r st cursor a sys.site = (s, cycle) ∧
      sys' = { sys with site := s }.put t r (cycle.phase k) := by
  simp only [answer] at h
  split at h
  · cases h
  · rename_i task ht
    obtain ⟨r, φ⟩ := task
    cases φ with
    | waiting k st cursor =>
      cases h
      rcases hc : Cycle.resume w b r st cursor a sys.site with ⟨s, cycle⟩
      exact ⟨r, k, st, cursor, s, cycle, ht, hc, hc ▸ afterReview_eq ht k s cycle⟩
    | _ => cases h

end System

/-! ## What a history shows -/

/-- The snapshot that the review takes that begins with this action. -/
def System.snapshot? (sys : System L) : Action → Option (ResourceClass × Snapshot)
  | .step t =>
    match sys.tasks.find? t with
    | some ⟨r, .entered _⟩ => some (r, sys.site.queue.snapshot r)
    | _ => none
  | _ => none

theorem System.snapshot?_entered {sys : System L} {t : TaskId} {r : ResourceClass} {k : LockId}
    (ht : sys.tasks.find? t = some ⟨r, .entered k⟩) :
    sys.snapshot? (.step t) = some (r, sys.site.queue.snapshot r) := by
  simp only [snapshot?, ht]

/-- A task that does not begin its review takes no snapshot. -/
theorem System.snapshot?_eq_none {sys : System L} {t : TaskId} {r : ResourceClass} {φ : Phase L}
    (ht : sys.tasks.find? t = some ⟨r, φ⟩) (h : ∀ k, φ ≠ .entered k) :
    sys.snapshot? (.step t) = none := by
  cases φ with
  | entered k => exact absurd rfl (h k)
  | _ => simp only [snapshot?, ht]

theorem System.eq_of_snapshot? {sys : System L} {a : Action} {r : ResourceClass} {snap : Snapshot}
    (h : sys.snapshot? a = some (r, snap)) : snap = sys.site.queue.snapshot r := by
  simp only [snapshot?] at h
  split at h
  · split at h
    · cases h
      rfl
    · cases h
  · cases h

/-- The snapshots that reviews took, with their classes. -/
def History.snapshots (h : History L) : List (ResourceClass × Snapshot) :=
  h.filterMap fun (sys, a) => sys.snapshot? a

theorem History.snapshots_append (h : History L) (sys : System L) (a : Action) :
    History.snapshots (h ++ [(sys, a)]) = History.snapshots h ++ (sys.snapshot? a).toList := by
  unfold History.snapshots
  rw [List.filterMap_append]
  cases h : sys.snapshot? a <;> simp [h]

/-! ## Parts of a run -/

section Parts

variable [Limiter L] {w : Wiring} {b : Behaviour} {c : Chain L} {terms : Terms}
  {start sys : System L}

/-- A run can be taken apart at any point of its history. -/
theorem Run.split {h₁ h₂ : History L} (run : Run w b c terms start (h₁ ++ h₂) sys) :
    ∃ mid, Run w b c terms start h₁ mid ∧ Run w b c terms mid h₂ sys := by
  generalize e : h₁ ++ h₂ = h at run
  induction run generalizing h₂ with
  | start =>
    obtain ⟨rfl, rfl⟩ := List.append_eq_nil_iff.1 e
    exact ⟨start, .start, .start⟩
  | @next h sys a sys' run allowed acted ih =>
    rcases List.eq_nil_or_concat h₂ with rfl | ⟨rest, last, rfl⟩
    · rw [List.append_nil] at e
      rw [e]
      exact ⟨sys', .next run allowed acted, .start⟩
    · rw [List.concat_eq_append, ← List.append_assoc] at e
      obtain ⟨rfl, same⟩ := List.append_inj' e rfl
      obtain ⟨mid, before, after⟩ := ih rfl
      rw [List.concat_eq_append, List.cons.inj same |>.1]
      exact ⟨mid, before, .next after allowed acted⟩

theorem Run.append {mid : System L} {h₁ h₂ : History L} (before : Run w b c terms start h₁ mid)
    (after : Run w b c terms mid h₂ sys) : Run w b c terms start (h₁ ++ h₂) sys := by
  induction after with
  | start =>
    rw [List.append_nil]
    exact before
  | next _ allowed acted ih =>
    rw [← List.append_assoc]
    exact .next ih allowed acted

/-- What the last action has done. -/
theorem Run.last {h : History L} {before : System L} {a : Action}
    (run : Run w b c terms start (h ++ [(before, a)]) sys) :
    Run w b c terms start h before ∧ before.act w b c a = some sys := by
  generalize e : h ++ [(before, a)] = h' at run
  cases run with
  | start => cases List.append_ne_nil_of_right_ne_nil h (List.cons_ne_nil _ _) e
  | next run allowed acted =>
    obtain ⟨rfl, same⟩ := List.append_inj' e rfl
    cases same
    exact ⟨run, acted⟩

end Parts

/-! ## Carrying out actions -/

/-- Carries out actions one after the other; gives the history and the last system. -/
def System.replay [Limiter L] (w : Wiring) (b : Behaviour) (c : Chain L) :
    List Action → History L → System L → Option (History L × System L)
  | [], h, sys => some (h, sys)
  | a :: rest, h, sys =>
    match sys.act w b c a with
    | none => none
    | some sys' => replay w b c rest (h ++ [(sys, a)]) sys'

/-- Actions that can be carried out and are allowed make a run. -/
theorem Run.of_replay [Limiter L] {w : Wiring} {b : Behaviour} {c : Chain L} {terms : Terms}
    {start sys sys' : System L} {h h' : History L} {actions : List Action}
    (done : sys.replay w b c actions h = some (h', sys')) (run : Run w b c terms start h sys)
    (allowed : ∀ a ∈ actions, ∀ sys : System L, terms.Allow sys a) :
    Run w b c terms start h' sys' := by
  induction actions generalizing h sys with
  | nil =>
    cases done
    exact run
  | cons a rest ih =>
    simp only [System.replay] at done
    split at done
    · cases done
    · rename_i next acted
      have here := allowed a List.mem_cons_self sys
      exact ih done (.next run here acted) fun a' mem => allowed a' (List.mem_cons_of_mem _ mem)

/-! ## A small site

Two items ask for a review. The first provider delivers one unit at once; the review waits for the
second one. -/

namespace Sample

def item (n : Nat) : WorkItem := ⟨.ofNat n, .unlabeled, default⟩

def provider (n : Nat) : Provider := ⟨.ofNat n, "", "", fun _ => true⟩

def behaviour : Behaviour where
  headroom _ _ _ _ := .ok true
  respond _ created q :=
    if q.provider.id = .ofNat 1 then
      some (.ok [⟨.fresh created, q.provider.id, q.resource, min 1 q.units⟩])
    else none

def wiring : Wiring := { fastPath := true, trigger := some ⟨true, [provider 1, provider 2], .all⟩ }

def chain : Chain StaticLimiter := [.engine { providers := [provider 1, provider 2] }, .fallback]

/-- Up to two units of either provider. -/
def ceilings : Table Slot Count :=
  ((∅ : Table Slot Count).insert ⟨.ofNat 1, .unlabeled⟩ 2).insert ⟨.ofNat 2, .unlabeled⟩ 2

def start : System StaticLimiter := .idle { ceilings } (.ofCapacity 1)

/-- The items arrive, and the worker takes the request. -/
def arrival : List Action :=
  [.move (.submitBuildable (item 1)), .move (.submitBuildable (item 2)), .receive]

/-- The review begins and comes to wait for the second provider. -/
def review : List Action := arrival ++ [.step 0, .step 0, .step 0]

/-- The second provider refuses. -/
def refusal : List Action := review ++ [.answer 0 (.error (.provision "full"))]

/-- What the first provider answers at once is one unit of its own, if any are asked for. -/
theorem respond_eq {calls : List Call} {created : Nat} {q : Request} {a : Answer}
    (h : behaviour.respond calls created q = some a) :
    a = .ok [⟨.fresh created, q.provider.id, q.resource, min 1 q.units⟩] := by
  simp only [behaviour] at h
  split at h
  · cases h
    rfl
  · cases h

theorem plain : chain.Plain := by
  intro name ordinal apply mem
  rcases List.mem_cons.1 mem with e | mem
  · cases e
  · cases List.mem_singleton.1 mem

theorem allowed (terms : Terms) (moves : ∀ n, terms.moves (.submitBuildable (item n)))
    (answers : ∀ q e, terms.answers q (.error e)) :
    ∀ a ∈ refusal, ∀ sys : System StaticLimiter, terms.Allow sys a := by
  intro a mem sys
  simp only [refusal, review, arrival] at mem
  simp only [List.cons_append, List.nil_append, List.mem_cons, List.not_mem_nil, or_false] at mem
  rcases mem with rfl | rfl | rfl | rfl | rfl | rfl | rfl
  · exact moves _
  · exact moves _
  · trivial
  · trivial
  · trivial
  · trivial
  · exact fun q _ => answers q _

end Sample

end Muster
