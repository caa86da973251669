import Mathlib.Data.List.Pairwise
import Muster.Proofs.Triggers

/-!
# Requests and marks

A request in the line and the mark of its class go their own ways: the request leaves the line when
the worker takes it, the mark goes when any review of the class begins. A review that nobody took
from the line therefore leaves a request behind whose class is free to be asked for again.

The requests that were queued are read off the history. The first of them are those that the worker
has taken, each with the task called for it, and the others are the line. A class is marked exactly
while no review of it has begun since its last request was queued, and between any two of its
requests a review has begun. If every review of the class was taken from the line, no request is
left behind: all that are outstanding are fresh. `System.Files` is the invariant, which every action
keeps.

**Main statement.** `Run.marks_requests`: in every run in which strategies of the host ask for no
reviews.
-/

namespace Muster

variable {L : Type}

/-- A request that was queued: its class, and how many actions came before it. -/
structure Post where
  resource : ResourceClass
  moment : Nat

/-- The class that an action queues a request for. -/
def System.queues? (w : Wiring) (b : Behaviour) (sys : System L) (a : Action) :
    Option ResourceClass :=
  match sys.requested? w b a with
  | some (r, .queued) => some r
  | _ => none

namespace History

/-- The requests that were queued, oldest first. -/
def posts (w : Wiring) (b : Behaviour) (h : History L) : List Post :=
  h.zipIdx.filterMap fun ((sys, a), i) => (sys.queues? w b a).map (⟨·, i⟩)

/-- The tasks that the worker has called, oldest first. -/
def receipts (h : History L) : List TaskId :=
  h.filterMap fun (sys, a) => if a matches .receive then some sys.next else none

/-- No review of its class has begun since the request was queued. -/
def Fresh (h : History L) (p : Post) : Prop :=
  ∀ snap, (p.resource, snap) ∉ snapshots (h.drop p.moment)

/-- A review of its class has begun after the one request was queued and before the other was. -/
def Apart (h : History L) (p q : Post) : Prop :=
  ∃ snap, (p.resource, snap) ∈ snapshots ((h.take q.moment).drop p.moment)

/-- Every review of the class was begun by a task that the worker had called. -/
def Channelled (h : History L) (r : ResourceClass) : Prop :=
  ∀ h₁ sys a h₂ snap, h = h₁ ++ (sys, a) :: h₂ → sys.snapshot? a = some (r, snap) →
    ∃ t, a = .step t ∧ Received h₁ t

section

variable {w : Wiring} {b : Behaviour} {h : History L} {sys : System L} {a : Action} {p q : Post}
  {r : ResourceClass}

theorem posts_append : posts w b (h ++ [(sys, a)]) =
    posts w b h ++ ((sys.queues? w b a).map (⟨·, h.length⟩)).toList := by
  unfold posts
  rw [List.zipIdx_append, List.filterMap_append]
  cases e : sys.queues? w b a <;> simp [e]

theorem moment_lt (mem : p ∈ posts w b h) : p.moment < h.length := by
  obtain ⟨⟨⟨sys, a⟩, i⟩, listed, e⟩ := List.mem_filterMap.1 mem
  obtain ⟨r, -, rfl⟩ := Option.map_eq_some_iff.1 e
  have := List.snd_lt_of_mem_zipIdx listed
  simpa using this

theorem mem_receipts {t : TaskId} : t ∈ receipts h ↔ Received h t := by
  unfold receipts Received
  rw [List.mem_filterMap]
  constructor
  · rintro ⟨⟨sys, a⟩, mem, e⟩
    cases a with
    | receive =>
      cases e
      exact ⟨sys, mem, rfl⟩
    | _ => cases e
  · rintro ⟨sys, mem, e⟩
    exact ⟨(sys, .receive), mem, congrArg some e⟩

/-- A request stays fresh until a review of its class begins. -/
theorem fresh_append (mem : p ∈ posts w b h) : Fresh (h ++ [(sys, a)]) p ↔
    Fresh h p ∧ ∀ snap, sys.snapshot? a ≠ some (p.resource, snap) := by
  unfold Fresh
  rw [List.drop_append_of_le_length (moment_lt mem).le, snapshots_append]
  simp only [List.mem_append, Option.mem_toList, not_or, forall_and, ne_eq]

/-- A request that was just queued is fresh. -/
theorem fresh_new : Fresh (h ++ [(sys, a)]) ⟨r, h.length⟩ ↔
    ∀ snap, sys.snapshot? a ≠ some (r, snap) := by
  unfold Fresh
  rw [List.drop_left]
  simp [snapshots]

theorem apart_append (mem : q ∈ posts w b h) : Apart (h ++ [(sys, a)]) p q ↔ Apart h p q := by
  unfold Apart
  rw [List.take_append_of_le_length (moment_lt mem).le]

/-- A request that is not fresh is apart from the next one. -/
theorem apart_new : Apart (h ++ [(sys, a)]) p ⟨r, h.length⟩ ↔ ¬ Fresh h p := by
  unfold Apart Fresh
  rw [List.take_left]
  simp only [not_forall, not_not]

/-- Of two requests that are apart, only the later one can be fresh. -/
theorem Apart.not_fresh (apart : Apart h p q) : ¬ Fresh h p := by
  obtain ⟨snap, mem⟩ := apart
  intro fresh
  refine fresh snap ?_
  unfold snapshots at mem ⊢
  rw [List.drop_take] at mem
  exact ((List.take_sublist _ _).filterMap _).mem mem

theorem Channelled.init (h' : Channelled (h ++ [(sys, a)]) r) : Channelled h r := by
  intro h₁ sys' a' h₂ snap e
  subst e
  refine h' h₁ sys' a' (h₂ ++ [(sys, a)]) snap ?_
  rw [List.append_assoc, List.cons_append]

end

end History

/-! ## One action -/

namespace System.LineStep

variable {w : Wiring} {b : Behaviour} {sys : System L} {a : Action} {l : RequestLine}
  {r : ResourceClass}

/-- A request is queued only for a class that is not marked. -/
theorem free (h : sys.LineStep w b a l) (queued : sys.queues? w b a = some r) :
    sys.site.line.isPending r = false ∧ sys.snapshot? a = none := by
  simp only [queues?] at queued
  split at queued
  · rename_i q asked
    cases queued
    cases h with
    | asks asked' snapped asks =>
      cases asked.symm.trans asked'
      cases asks with
      | queued _ free _ _ => exact ⟨free, snapped⟩
      | other ne _ _ _ => exact absurd rfl ne
    | receives received _ _ =>
      subst received
      cases asked
    | begins none _ _ => cases asked.symm.trans none
    | still none _ _ => cases asked.symm.trans none
  · cases queued

/-- The marks after an action: that of a request that is queued, and those that were there except
for the class whose review begins. -/
theorem isPending_iff (h : sys.LineStep w b a l) : l.isPending r = true ↔
    sys.queues? w b a = some r ∨
      sys.site.line.isPending r = true ∧ ∀ snap, sys.snapshot? a ≠ some (r, snap) := by
  unfold queues?
  cases h with
  | asks asked snapped asks =>
    rw [asked, snapped]
    cases asks with
    | queued _ _ _ marks => simp [marks, @eq_comm _ r]
    | other ne _ _ marks => simp [marks, ne]
  | receives received _ e =>
    subst received e
    simp [requested?, snapshot?, RequestLine.isPending]
  | begins asked snapped e =>
    subst e
    rw [asked, snapped]
    simp [RequestLine.isPending_begin, @eq_comm _ r, and_comm]
  | still asked snapped e =>
    subst e
    rw [asked, snapped]
    simp

/-- Whatever is not a receipt keeps the line, and a request that is queued is appended. -/
theorem waiting_eq (h : sys.LineStep w b a l) (other : a ≠ .receive) :
    l.waiting.map (·.resource) =
      sys.site.line.waiting.map (·.resource) ++ (sys.queues? w b a).toList := by
  unfold queues?
  cases h with
  | asks asked snapped asks =>
    rw [asked]
    cases asks with
    | queued _ _ waits _ => simp [waits]
    | other ne _ waits _ => simp [waits, ne]
  | receives received _ _ => exact absurd received other
  | begins asked _ e | still asked _ e =>
    subst e
    rw [asked]
    exact (List.append_nil _).symm

end System.LineStep

/-! ## The line and the tasks of the worker -/

/-- The requests of a history are accounted for: the worker has taken some, each with a task, and
the others are in line. -/
structure System.Files (w : Wiring) (b : Behaviour) (sys : System L) (h : History L)
    (taken : List (Post × TaskId)) (line : List Post) : Prop where
  posts : h.posts w b = taken.map Prod.fst ++ line
  receipts : h.receipts = taken.map Prod.snd
  waiting : sys.site.line.waiting.map (·.resource) = line.map (·.resource)
  tasks : ∀ {p t}, (p, t) ∈ taken → ∃ φ, sys.tasks.find? t = some ⟨p.resource, φ⟩ ∧
    (h.Fresh p → φ.Unbegun)
  marked : ∀ r, sys.site.line.isPending r = true ↔
    ∃ p ∈ h.posts w b, p.resource = r ∧ h.Fresh p
  apart : (h.posts w b).Pairwise fun p q => p.resource = q.resource → h.Apart p q
  lined : ∀ {p}, h.Channelled p.resource → p ∈ line → h.Fresh p
  pending : ∀ {p t φ}, h.Channelled p.resource → (p, t) ∈ taken →
    sys.tasks.find? t = some ⟨p.resource, φ⟩ → φ.Unbegun → h.Fresh p

/-- A review that has begun does not become one that has not. -/
theorem Phase.Leads.was_unbegun {φ ψ : Phase L} (leads : φ.Leads ψ) (hψ : ψ.Unbegun) :
    φ.Unbegun ∧ ∀ k, φ ≠ .entered k := by
  cases leads with
  | get | enter | line | next => exact ⟨trivial, nofun⟩
  | begin cycle | resume cycle => cases cycle <;> exact hψ.elim
  | pass | release => exact hψ.elim

theorem System.entered_of_snapshot? {sys : System L} {t : TaskId} {r : ResourceClass}
    {snap : Snapshot} (h : sys.snapshot? (.step t) = some (r, snap)) :
    ∃ k, sys.tasks.find? t = some ⟨r, .entered k⟩ := by
  simp only [snapshot?] at h
  split at h
  · rename_i r' k found
    cases h
    exact ⟨k, found⟩
  · cases h

namespace System.Files

variable {w : Wiring} {b : Behaviour} {sys : System L} {h : History L} {a : Action}
  {taken : List (Post × TaskId)} {line : List Post} {r : ResourceClass} {l : RequestLine}

/-- A class is marked while the last of its requests is fresh. -/
theorem marked_act (files : sys.Files w b h taken line) (step : sys.LineStep w b a l) :
    l.isPending r = true ↔
      ∃ p ∈ History.posts w b (h ++ [(sys, a)]), p.resource = r ∧
        History.Fresh (h ++ [(sys, a)]) p := by
  rw [step.isPending_iff, files.marked, History.posts_append]
  constructor
  · rintro (queued | ⟨⟨p, mem, rfl, fresh⟩, none⟩)
    · refine ⟨⟨r, h.length⟩, ?_, rfl, History.fresh_new.2 fun snap => ?_⟩
      · rw [queued]
        exact List.mem_append_right _ List.mem_cons_self
      · rw [(step.free queued).2]
        exact nofun
    · exact ⟨p, List.mem_append_left _ mem, rfl, (History.fresh_append mem).2 ⟨fresh, none⟩⟩
  · rintro ⟨p, mem, rfl, fresh⟩
    rcases List.mem_append.1 mem with mem | mem
    · obtain ⟨fresh, none⟩ := (History.fresh_append mem).1 fresh
      exact .inr ⟨⟨p, mem, rfl, fresh⟩, none⟩
    · obtain ⟨r, queued, rfl⟩ := Option.map_eq_some_iff.1 (Option.mem_toList.1 mem)
      exact .inl queued

/-- When a request is queued, a review has begun since each earlier request of its class was. -/
theorem apart_act (files : sys.Files w b h taken line) (step : sys.LineStep w b a l) :
    (History.posts w b (h ++ [(sys, a)])).Pairwise fun p q =>
      p.resource = q.resource → History.Apart (h ++ [(sys, a)]) p q := by
  rw [History.posts_append, List.pairwise_append]
  refine ⟨?_, ?_, ?_⟩
  · refine files.apart.imp_of_mem ?_
    intro p q _ mem apart same
    exact (History.apart_append mem).2 (apart same)
  · cases sys.queues? w b a <;> simp
  · intro p mem q new same
    obtain ⟨r, queued, rfl⟩ := Option.map_eq_some_iff.1 (Option.mem_toList.1 new)
    refine History.apart_new.2 fun fresh => ?_
    have marked := (files.marked r).2 ⟨p, mem, same, fresh⟩
    rw [(step.free queued).1] at marked
    cases marked

/-- A fresh request that the worker has taken is the last one of its class. -/
theorem last (files : sys.Files w b h taken line) {p : Post} {t : TaskId} (mem : (p, t) ∈ taken)
    (fresh : h.Fresh p) :
    (∀ q ∈ line, p.resource ≠ q.resource) ∧
      ∀ x ∈ taken, p.resource = x.1.resource → h.Fresh x.1 → x = (p, t) := by
  have apart := files.apart
  rw [files.posts, List.pairwise_append, List.pairwise_map] at apart
  obtain ⟨among, -, across⟩ := apart
  constructor
  · intro q mem' same
    exact (across p (List.mem_map_of_mem mem) q mem' same).not_fresh fresh
  · intro x mem' same fresh'
    have one : taken.Pairwise fun x y => x.1.resource = y.1.resource → h.Fresh x.1 →
        h.Fresh y.1 → x = y :=
      among.imp fun apart same fresh _ => absurd fresh (apart same).not_fresh
    have symm : Std.Symm fun x y : Post × TaskId => x.1.resource = y.1.resource →
        h.Fresh x.1 → h.Fresh y.1 → x = y :=
      ⟨fun _ _ one same hx hy => (one same.symm hy hx).symm⟩
    exact one.forall_of_forall (fun _ _ _ _ _ => rfl) mem' mem same.symm fresh' fresh

/-- If every review of the class was taken from the line, at most one request for it is in line. -/
theorem lined_once (files : sys.Files w b h taken line) (channelled : h.Channelled r) :
    line.countP (·.resource = r) ≤ 1 := by
  have apart := files.apart
  rw [files.posts, List.pairwise_append] at apart
  have never : (line.filter (·.resource = r)).Pairwise fun _ _ => False := by
    refine (apart.2.1.filter _).imp_of_mem ?_
    intro p q hp hq apart
    obtain ⟨mem, rfl⟩ : p ∈ line ∧ p.resource = r := by simpa using List.mem_filter.1 hp
    have same : q.resource = p.resource := by simpa using (List.mem_filter.1 hq).2
    exact (apart same.symm).not_fresh (files.lined channelled mem)
  rw [List.countP_eq_length_filter]
  generalize line.filter (·.resource = r) = found at never
  match found, never with
  | [], _ | [_], _ => exact Nat.le_of_ble_eq_true rfl
  | _ :: q :: _, never => exact ((List.pairwise_cons.1 never).1 q List.mem_cons_self).elim

/-- If every review of the class is taken from the line, a review begins for a fresh request. -/
theorem fresh_of_snapshot? (files : sys.Files w b h taken line)
    (channelled : History.Channelled (h ++ [(sys, a)]) r) {snap : Snapshot}
    (begins : sys.snapshot? a = some (r, snap)) :
    ∃ p t k, (p, t) ∈ taken ∧ p.resource = r ∧ h.Fresh p ∧ a = .step t ∧
      sys.tasks.find? t = some ⟨r, .entered k⟩ := by
  obtain ⟨t, rfl, received⟩ := channelled h sys a [] snap rfl begins
  have listed := History.mem_receipts.2 received
  rw [files.receipts, List.mem_map] at listed
  obtain ⟨⟨p, t⟩, mem, rfl⟩ := listed
  obtain ⟨k, found⟩ := entered_of_snapshot? begins
  obtain ⟨φ, found', -⟩ := files.tasks mem
  cases found.symm.trans found'
  exact ⟨p, t, k, mem, rfl, files.pending channelled.init mem found trivial, rfl, found⟩

/-- A request in line stays fresh if every review of its class is taken from the line. -/
theorem lined_act (files : sys.Files w b h taken line) {p : Post}
    (channelled : History.Channelled (h ++ [(sys, a)]) p.resource) (mem : p ∈ line) :
    History.Fresh (h ++ [(sys, a)]) p := by
  have posted : p ∈ h.posts w b := files.posts ▸ List.mem_append_right _ mem
  refine (History.fresh_append posted).2 ⟨files.lined channelled.init mem, ?_⟩
  intro snap begins
  obtain ⟨q, t, k, mem', same, fresh, -⟩ := files.fresh_of_snapshot? channelled begins
  exact (files.last mem' fresh).1 p mem same

variable [Limiter L] {c : Chain L} {sys' : System L}

/-- So does a request whose task has not begun. -/
theorem pending_act (files : sys.Files w b h taken line) (orderly : sys.Orderly)
    (acted : sys.act w b c a = some sys') {p : Post} {t : TaskId} {ψ : Phase L}
    (channelled : History.Channelled (h ++ [(sys, a)]) p.resource) (mem : (p, t) ∈ taken)
    (found : sys'.tasks.find? t = some ⟨p.resource, ψ⟩) (hψ : ψ.Unbegun) :
    History.Fresh (h ++ [(sys, a)]) p := by
  have posted : p ∈ h.posts w b := by
    rw [files.posts]
    exact List.mem_append_left _ (List.mem_map_of_mem mem)
  obtain ⟨φ, before, -⟩ := files.tasks mem
  have stood : φ.Unbegun ∧ (a.task? = some t → ∀ k, φ ≠ .entered k) := by
    by_cases own : a.task? = some t
    · obtain ⟨ψ', leads, found'⟩ := act_own acted own before
      cases found.symm.trans found'
      exact ⟨(leads.was_unbegun hψ).1, fun _ => (leads.was_unbegun hψ).2⟩
    · cases found.symm.trans (orderly.act_other acted own before)
      exact ⟨hψ, fun own' => absurd own' own⟩
  have fresh := files.pending channelled.init mem before stood.1
  refine (History.fresh_append posted).2 ⟨fresh, ?_⟩
  intro snap begins
  -- The review would have begun for this very request, since there is no other fresh one.
  obtain ⟨q, t', k, mem', same, fresh', rfl, found'⟩ := files.fresh_of_snapshot? channelled begins
  cases (files.last mem' fresh').2 (p, t) mem same fresh
  cases before.symm.trans found'
  exact stood.2 rfl k rfl

/-- The tasks of the worker wait as long as their requests are fresh. -/
theorem tasks_act (files : sys.Files w b h taken line) (orderly : sys.Orderly)
    (acted : sys.act w b c a = some sys') {p : Post} {t : TaskId} (mem : (p, t) ∈ taken) :
    ∃ φ, sys'.tasks.find? t = some ⟨p.resource, φ⟩ ∧
      (History.Fresh (h ++ [(sys, a)]) p → φ.Unbegun) := by
  obtain ⟨φ, found, waits⟩ := files.tasks mem
  have posted : p ∈ h.posts w b := by
    rw [files.posts]
    exact List.mem_append_left _ (List.mem_map_of_mem mem)
  by_cases fresh : History.Fresh (h ++ [(sys, a)]) p
  · obtain ⟨before, none⟩ := (History.fresh_append posted).1 fresh
    obtain ⟨ψ, found', hψ⟩ := act_unbegun orderly acted none found (waits before)
    exact ⟨ψ, found', fun _ => hψ⟩
  · obtain ⟨ψ, found'⟩ := orderly.act_task acted found
    exact ⟨ψ, found', fun e => absurd e fresh⟩

/-- The worker takes the first request, and a request that is queued comes last. -/
theorem act (files : sys.Files w b h taken line) (orderly : sys.Orderly)
    (step : sys.LineStep w b a sys'.site.line) (acted : sys.act w b c a = some sys') :
    ∃ taken' line', sys'.Files w b (h ++ [(sys, a)]) taken' line' := by
  by_cases received : a = .receive
  · subst received
    obtain ⟨⟨q, l⟩, took, rfl⟩ := Option.map_eq_some_iff.1 acted
    obtain ⟨rest, waits, rfl⟩ := RequestLine.receive_eq took
    have waiting := files.waiting
    rw [waits, List.map_cons] at waiting
    obtain ⟨p, line', rfl, same, others⟩ := List.map_eq_cons_iff.1 waiting.symm
    refine ⟨taken ++ [(p, sys.next)], line', ?_, ?_, others.symm, ?_, fun r => files.marked_act step,
      files.apart_act step, ?_, ?_⟩
    · rw [History.posts_append, files.posts, List.map_append, List.append_assoc]
      simp [queues?, requested?]
    · unfold History.receipts
      rw [List.filterMap_append, List.map_append]
      exact congrArg (· ++ _) files.receipts
    · intro p' t mem
      rcases List.mem_append.1 mem with mem | mem
      · exact files.tasks_act orderly acted mem
      · cases List.mem_singleton.1 mem
        refine ⟨.called, ?_, fun _ => trivial⟩
        rw [same]
        exact find?_put _ _ _ _
    · intro p' channelled mem
      exact files.lined_act channelled (List.mem_cons_of_mem _ mem)
    · intro p' t φ channelled mem found hφ
      rcases List.mem_append.1 mem with mem | mem
      · exact files.pending_act orderly acted channelled mem found hφ
      · cases List.mem_singleton.1 mem
        exact files.lined_act channelled List.mem_cons_self
  · refine ⟨taken, line ++ ((sys.queues? w b a).map (⟨·, h.length⟩)).toList, ?_, ?_, ?_,
      files.tasks_act orderly acted, fun r => files.marked_act step, files.apart_act step, ?_,
      files.pending_act orderly acted⟩
    · rw [History.posts_append, files.posts, List.append_assoc]
    · unfold History.receipts
      rw [List.filterMap_append, ← files.receipts]
      cases a with
      | receive => exact absurd rfl received
      | _ => exact List.append_nil _
    · rw [step.waiting_eq received, files.waiting, List.map_append]
      cases sys.queues? w b a <;> rfl
    · intro p channelled mem
      rcases List.mem_append.1 mem with mem | mem
      · exact files.lined_act channelled mem
      · obtain ⟨r, queued, rfl⟩ := Option.map_eq_some_iff.1 (Option.mem_toList.1 mem)
        refine History.fresh_new.2 fun snap => ?_
        rw [(step.free queued).2]
        exact nofun

end System.Files

/-! ## Runs -/

section Runs

variable [Limiter L] {w : Wiring} {b : Behaviour} {c : Chain L} {limiter : L} {n : Nat}
  {h : History L} {sys : System L}

theorem Run.files (quiet : c.AsksNothing) (run : Run w b c {} (.idle limiter (.ofCapacity n)) h sys) :
    ∃ taken line, sys.Files w b h taken line := by
  induction run with
  | start =>
    refine ⟨[], [], rfl, rfl, rfl, nofun, fun r => ⟨nofun, ?_⟩, .nil, fun _ => nofun, fun _ => nofun⟩
    rintro ⟨p, mem, -⟩
    cases mem
  | next run _ acted ih =>
    obtain ⟨taken, line, files⟩ := ih
    exact files.act (run.orderly (.idle limiter _)) (run.lineStep quiet acted) acted

/-- A class is marked exactly as long as no review of it has begun since a request for it was
queued. That request is then in line, or the worker has taken it and its task has not begun; and
between any two requests for a class a review of it has begun. If every review of the class was
taken from the line, it is marked exactly as long as a request for it is outstanding, and the line
never has two requests for it. -/
theorem Run.marks_requests (quiet : c.AsksNothing)
    (run : Run w b c {} (.idle limiter (.ofCapacity n)) h sys) :
    ∃ (taken : List (Post × TaskId)) (line : List Post),
      h.posts w b = taken.map Prod.fst ++ line ∧
      h.receipts = taken.map Prod.snd ∧
      sys.site.line.waiting.map (·.resource) = line.map (·.resource) ∧
      (∀ r, sys.site.line.isPending r = true ↔
        ∃ p ∈ h.posts w b, p.resource = r ∧ h.Fresh p) ∧
      (∀ p ∈ h.posts w b, h.Fresh p → p ∈ line ∨ ∃ t φ, (p, t) ∈ taken ∧
        sys.tasks.find? t = some ⟨p.resource, φ⟩ ∧ φ.Unbegun) ∧
      (h.posts w b).Pairwise (fun p q => p.resource = q.resource → h.Apart p q) ∧
      ∀ r, h.Channelled r → (sys.site.line.isPending r = true ↔ sys.Outstanding h r) ∧
        sys.site.line.waiting.countP (·.resource = r) ≤ 1 := by
  obtain ⟨taken, line, files⟩ := run.files quiet
  refine ⟨taken, line, files.posts, files.receipts, files.waiting, files.marked, ?_, files.apart, ?_⟩
  · intro p mem fresh
    rw [files.posts] at mem
    rcases List.mem_append.1 mem with mem | mem
    · obtain ⟨⟨p, t⟩, taken, rfl⟩ := List.mem_map.1 mem
      obtain ⟨φ, found, waits⟩ := files.tasks taken
      exact .inr ⟨t, φ, taken, found, waits fresh⟩
    · exact .inl mem
  · intro r channelled
    refine ⟨⟨fun marked => run.outstanding quiet marked, ?_⟩, ?_⟩
    · rintro (⟨q, waits, rfl⟩ | ⟨t, φ, received, found, hφ⟩)
      · have listed : q.resource ∈ line.map (·.resource) := files.waiting ▸ List.mem_map_of_mem waits
        obtain ⟨p, mem, same⟩ := List.mem_map.1 listed
        refine (files.marked _).2 ⟨p, ?_, same, files.lined (same ▸ channelled) mem⟩
        exact files.posts ▸ List.mem_append_right _ mem
      · have listed := History.mem_receipts.2 received
        rw [files.receipts, List.mem_map] at listed
        obtain ⟨⟨p, t⟩, mem, rfl⟩ := listed
        obtain ⟨φ', found', -⟩ := files.tasks mem
        cases found.symm.trans found'
        refine (files.marked _).2 ⟨p, ?_, rfl, files.pending channelled mem found hφ⟩
        rw [files.posts]
        exact List.mem_append_left _ (List.mem_map_of_mem mem)
    · have once := files.lined_once channelled
      rw [← Function.comp_def (f := fun s => decide (s = r)), ← List.countP_map] at once ⊢
      rw [files.waiting]
      exact once

end Runs

/-! ## A request that is left behind -/

/-- A line with room for two requests. -/
def Sample.roomy : System StaticLimiter := .idle { ceilings } (.ofCapacity 2)

/-- A review of all classes with work begins while a request is in line; then another item
arrives. -/
def Sample.overtaken : List Action :=
  [.move (.submitBuildable (item 1)), .callAll, .step 0, .step 0, .step 0,
    .move (.submitBuildable (item 2))]

/-- The mark and the request part when a review begins that was not taken from the line: the class
is not marked although a request for it is outstanding, and the next request for it is queued
beside the first. -/
theorem unmarked_of_sample : (∃ h sys, Run Sample.wiring Sample.behaviour Sample.chain {}
      Sample.roomy h sys ∧ sys.site.line.isPending .unlabeled = false ∧
      sys.Outstanding h .unlabeled) ∧
    ∃ h sys, Run Sample.wiring Sample.behaviour Sample.chain {} Sample.roomy h sys ∧
      sys.site.line.waiting = [⟨.unlabeled, .fastPath⟩, ⟨.unlabeled, .fastPath⟩] := by
  have free : ∀ actions : List Action, ∀ a ∈ actions, ∀ sys : System StaticLimiter,
    Terms.Allow {} sys a := fun _ a _ sys => Terms.allow_free sys a
  obtain ⟨h, sys, done, unmarked, waits⟩ : ∃ h sys, Sample.roomy.replay Sample.wiring
      Sample.behaviour Sample.chain (Sample.overtaken.take 5) [] = some (h, sys) ∧
      sys.site.line.isPending .unlabeled = false ∧
      sys.site.line.waiting = [⟨.unlabeled, .fastPath⟩] := ⟨_, _, rfl, rfl, rfl⟩
  obtain ⟨h', sys', done', two⟩ : ∃ h sys, Sample.roomy.replay Sample.wiring Sample.behaviour
      Sample.chain Sample.overtaken [] = some (h, sys) ∧
      sys.site.line.waiting = [⟨.unlabeled, .fastPath⟩, ⟨.unlabeled, .fastPath⟩] :=
    ⟨_, _, rfl, rfl⟩
  refine ⟨⟨h, sys, .of_replay done .start (free _), unmarked, .inl ?_⟩,
    h', sys', .of_replay done' .start (free _), two⟩
  exact ⟨⟨.unlabeled, .fastPath⟩, waits ▸ List.mem_cons_self, rfl⟩

/-- The class is marked for the second request. A review has begun since the first. -/
theorem posts_of_sample : ∃ h sys p q, Run Sample.wiring Sample.behaviour Sample.chain {}
    Sample.roomy h sys ∧ h.posts Sample.wiring Sample.behaviour = [p, q] ∧
    p.resource = .unlabeled ∧ q.resource = .unlabeled ∧ h.Apart p q ∧ h.Fresh q := by
  obtain ⟨h, sys, done, posts, marked⟩ : ∃ h sys, Sample.roomy.replay Sample.wiring Sample.behaviour
      Sample.chain Sample.overtaken [] = some (h, sys) ∧
      h.posts Sample.wiring Sample.behaviour = [⟨.unlabeled, 0⟩, ⟨.unlabeled, 5⟩] ∧
      sys.site.line.isPending .unlabeled = true := ⟨_, _, rfl, rfl, rfl⟩
  have run := Run.of_replay done .start fun a _ sys => Terms.allow_free sys a
  obtain ⟨_, _, -, -, -, marks, -, apart, -⟩ := Run.marks_requests Sample.plain.asksNothing run
  rw [posts] at apart marks
  have apart := (List.pairwise_cons.1 apart).1 _ List.mem_cons_self rfl
  obtain ⟨p, mem, -, fresh⟩ := (marks .unlabeled).1 marked
  refine ⟨h, sys, _, _, run, posts, rfl, rfl, apart, ?_⟩
  rcases List.mem_cons.1 mem with rfl | mem
  · exact absurd fresh apart.not_fresh
  · cases List.mem_singleton.1 mem
    exact fresh

end Muster
