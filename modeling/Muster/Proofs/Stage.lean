import Muster.Proofs.Exclusion

/-!
# Reviews by class

Because a class has one review at a time, the reviews that wait can be kept by class, without tasks
and locks. A stage has the site, what each of these reviews knows, and the snapshots that were taken
so far. On a stage a run is a sequence of small steps: others use the site, the worker takes a
request off the line, a review begins, takes a stride or ends.

**Main statements.** `Run.shown`: every run is shown on a stage. `Run.keeps`: what the steps of a
stage keep holds of a stage that shows the system.
-/

namespace Muster

open Relation

/-- The site, the reviews under way, and the snapshots that reviews took. -/
structure Stage (L : Type) where
  site : Site L
  underway : Table ResourceClass ReviewState := ∅
  snapshots : List (ResourceClass × Snapshot) := []

variable {L : Type} [Limiter L]

namespace Stage

/-- The small steps of a run. -/
inductive Step (w : Wiring) (b : Behaviour) (c : Chain L) (terms : Terms) (f : Stage L) :
    Stage L → Prop
  | move {m} : terms.moves m → Step w b c terms f { f with site := m.apply w b f.site }
  | receive {q line} : f.site.line.receive = some (q, line) →
      Step w b c terms f { f with site := { f.site with line } }
  | begin {r} : f.underway.find? r = none → Step w b c terms f {
      site := Cycle.opened r f.site
      underway := f.underway.insert r (Cycle.captured r f.site)
      snapshots := f.snapshots ++ [(r, f.site.queue.snapshot r)] }
  | stride {r st s st'} : f.underway.find? r = some st →
      Stride w b c terms.answers (f.site, st) (s, st') →
      Step w b c terms f { f with site := s, underway := f.underway.insert r st' }
  | conclude {r st t} : f.underway.find? r = some st → Step w b c terms f { f with
      site := (Cycle.conclude w r f.site st t).1
      underway := f.underway.erase r }

/-- Any number of steps. -/
abbrev Steps (w : Wiring) (b : Behaviour) (c : Chain L) (terms : Terms) :
    Stage L → Stage L → Prop :=
  ReflTransGen (Step w b c terms)

variable {w : Wiring} {b : Behaviour} {c : Chain L} {terms : Terms}

/-- What every step keeps, a sequence of steps keeps. -/
theorem Steps.keeps {P : Stage L → Prop} (step : ∀ f g, Step w b c terms f g → P f → P g)
    {f g : Stage L} (h : Steps w b c terms f g) (hf : P f) : P g := by
  induction h with
  | refl => exact hf
  | tail _ h ih => exact step _ _ h ih

/-- The strides of a review are steps of the stage. -/
theorem steps_of_strides {f : Stage L} {r : ResourceClass} {st : ReviewState}
    (hr : f.underway.find? r = some st) {y : Site L × ReviewState}
    (h : Strides w b c terms.answers (f.site, st) y) :
    Steps w b c terms f { f with site := y.1, underway := f.underway.insert r y.2 } := by
  induction h with
  | refl =>
    rw [Table.insert_eq_self hr]
  | @tail y z _ h ih =>
    have next : Step w b c terms { f with site := y.1, underway := f.underway.insert r y.2 } _ :=
      .stride (r := r) (by rw [Table.find?_insert, if_pos rfl]) h
    rw [Table.insert_insert] at next
    exact ih.tail next

end Stage

/-! ## Systems on a stage -/

namespace Phase

omit [Limiter L]

/-- What a review under way knows. -/
def underway? : Phase L → Option ReviewState
  | waiting _ st _ => some st
  | _ => none

/-- A review under way can go on: its chain is part of `c`, and its request is warranted. -/
def Ready (c : Chain L) : Phase L → Prop
  | waiting _ st cursor => cursor.Fits c ∧ st.Warrants cursor.pause.request
  | _ => True

theorem held?_of_underway? {φ : Phase L} {st : ReviewState} (h : φ.underway? = some st) :
    ∃ k, φ.held? = some k := by
  cases φ with
  | waiting k st cursor => exact ⟨k, rfl⟩
  | _ => cases h

theorem ready_of_idle {φ : Phase L} (h : φ.underway? = none) (c : Chain L) : φ.Ready c := by
  cases φ with
  | waiting k st cursor => cases h
  | _ => trivial

end Phase

/-- The stage shows the system: its site, and the reviews under way, which can go on. -/
structure Stage.Shows (f : Stage L) (c : Chain L) (sys : System L) : Prop where
  site : f.site = sys.site
  underway : ∀ {r st}, f.underway.find? r = some st ↔
    ∃ t φ, sys.tasks.find? t = some ⟨r, φ⟩ ∧ φ.underway? = some st
  ready : ∀ {t r φ}, sys.tasks.find? t = some ⟨r, φ⟩ → φ.Ready c

namespace Stage.Shows

omit [Limiter L]

variable {c : Chain L} {f f' : Stage L} {sys sys' : System L} {t : TaskId}
  {r : ResourceClass} {φ ψ : Phase L}

theorem idle (limiter : L) (line : RequestLine) :
    Shows { site := { limiter, line } } c (System.idle limiter line) where
  site := rfl
  underway := ⟨(nomatch ·), fun ⟨_, _, h, _⟩ => nomatch h⟩
  ready h := nomatch h

/-- A task that has no review under way and gets none is not seen. -/
theorem unseen (h : f.Shows c sys)
    (idle : ∀ r φ, sys.tasks.find? t = some ⟨r, φ⟩ → φ.underway? = none)
    (hψ : ψ.underway? = none) (hsite : sys'.site = sys.site)
    (htasks : sys'.tasks = sys.tasks.insert t ⟨r, ψ⟩) : f.Shows c sys' := by
  refine ⟨h.site.trans hsite.symm, fun {q st} => ⟨?_, ?_⟩, ?_⟩
  · intro found
    obtain ⟨t', φ, found, under⟩ := h.underway.1 found
    have ne : t' ≠ t := by
      intro e
      rw [idle q φ (e ▸ found)] at under
      cases under
    refine ⟨t', φ, ?_, under⟩
    rw [htasks, Table.find?_insert, if_neg ne, found]
  · rintro ⟨t', φ, found, under⟩
    rw [htasks] at found
    rcases Table.find?_insert_cases found with ⟨-, e⟩ | ⟨-, old⟩
    · cases e
      cases hψ.symm.trans under
    · exact h.underway.2 ⟨t', φ, old, under⟩
  · intro t' q χ found
    rw [htasks] at found
    rcases Table.find?_insert_cases found with ⟨-, e⟩ | ⟨-, old⟩
    · cases e
      exact Phase.ready_of_idle hψ c
    · exact h.ready old

/-- The task that has the review of its class goes on with it. -/
theorem seen (h : f.Shows c sys) (ht : sys.tasks.find? t = some ⟨r, φ⟩)
    (alone : ∀ t' χ st, sys.tasks.find? t' = some ⟨r, χ⟩ → χ.underway? = some st → t' = t)
    (hψ : ψ.Ready c) (hsite : f'.site = sys'.site)
    (htasks : sys'.tasks = sys.tasks.insert t ⟨r, ψ⟩)
    (hf : ∀ q, f'.underway.find? q = if q = r then ψ.underway? else f.underway.find? q) :
    f'.Shows c sys' := by
  refine ⟨hsite, fun {q st} => ⟨?_, ?_⟩, ?_⟩
  · intro found
    rw [hf] at found
    by_cases e : q = r
    · subst e
      rw [if_pos rfl] at found
      exact ⟨t, ψ, by rw [htasks, Table.find?_insert, if_pos rfl], found⟩
    · rw [if_neg e] at found
      obtain ⟨t', χ, old, under⟩ := h.underway.1 found
      have other : t' ≠ t := by
        intro same
        subst same
        cases ht.symm.trans old
        exact e rfl
      refine ⟨t', χ, ?_, under⟩
      rw [htasks, Table.find?_insert, if_neg other, old]
  · rintro ⟨t', χ, found, under⟩
    rw [hf]
    rw [htasks] at found
    rcases Table.find?_insert_cases found with ⟨-, e⟩ | ⟨ne, old⟩
    · cases e
      rw [if_pos rfl, under]
    · have other : q ≠ r := by
        intro e
        subst e
        exact ne (alone t' χ st old under)
      rw [if_neg other]
      exact h.underway.2 ⟨t', χ, old, under⟩
  · intro t' q χ found
    rw [htasks] at found
    rcases Table.find?_insert_cases found with ⟨-, e⟩ | ⟨-, old⟩
    · cases e
      exact hψ
    · exact h.ready old

theorem spawn (h : f.Shows c sys) (orderly : sys.Orderly) (r : ResourceClass) :
    f.Shows c (sys.spawn r).2 := by
  refine h.unseen ?_ (ψ := .called) rfl rfl rfl
  intro r φ found
  rw [orderly.find?_next] at found
  cases found

theorem callEach (h : f.Shows c sys) (orderly : sys.Orderly) (rs : List ResourceClass) :
    f.Shows c (sys.callEach rs) := by
  induction rs generalizing sys with
  | nil => exact h
  | cons r rs ih => exact ih (h.spawn orderly r) (orderly.spawn r)

/-- A task that stays without a review under way is not seen. -/
theorem put (h : f.Shows c sys) (ht : sys.tasks.find? t = some ⟨r, φ⟩) (hφ : φ.underway? = none)
    (hψ : ψ.underway? = none) (l : ClassLocks) : f.Shows c ({ sys with locks := l }.put t r ψ) := by
  refine h.unseen ?_ hψ rfl rfl
  intro q χ found
  cases ht.symm.trans found
  exact hφ

theorem withSite (h : f.Shows c sys) (s : Site L) :
    Shows { f with site := s } c { sys with site := s } :=
  ⟨rfl, h.underway, h.ready⟩

end Stage.Shows

/-! ## Runs on a stage -/

omit [Limiter L] in
/-- The holder of the lock of a class has the review of the class. -/
theorem System.Orderly.alone {sys : System L} (orderly : sys.Orderly) {t : TaskId}
    {r : ResourceClass} {φ : Phase L} {k : LockId} (ht : sys.tasks.find? t = some ⟨r, φ⟩)
    (hφ : φ.held? = some k) (t' : TaskId) (χ : Phase L) (st : ReviewState)
    (ht' : sys.tasks.find? t' = some ⟨r, χ⟩) (hχ : χ.underway? = some st) : t' = t := by
  obtain ⟨j, hj⟩ := Phase.held?_of_underway? hχ
  exact orderly.serves.exclusive ht' ht hj hφ

section Runs

variable {w : Wiring} {b : Behaviour} {c : Chain L} {terms : Terms} {f : Stage L}
  {sys sys' : System L}

/-- A review that goes on is shown by steps of the stage. -/
theorem Stage.Shows.follow (h : f.Shows c sys) (orderly : sys.Orderly) {t : TaskId}
    {r : ResourceClass} {φ : Phase L} {k : LockId} (ht : sys.tasks.find? t = some ⟨r, φ⟩)
    (hφ : φ.held? = some k) {g : Stage L} {st : ReviewState} (hg : g.underway.find? r = some st)
    (others : ∀ q, q ≠ r → g.underway.find? q = f.underway.find? q) {s : Site L} {cycle : Cycle L}
    (follows : Cycle.Follows w b c terms.answers r (g.site, st) (s, cycle)) :
    ∃ f', Steps w b c terms g f' ∧ f'.Shows c ({ sys with site := s }.put t r (cycle.phase k)) ∧
      f'.snapshots = g.snapshots := by
  have alone := orderly.alone ht hφ
  cases cycle with
  | waiting st' cursor =>
    obtain ⟨strides, fits, warrants⟩ := follows
    refine ⟨_, steps_of_strides hg strides, h.seen ht alone
      (ψ := .waiting k st' cursor) ⟨fits, warrants⟩ rfl rfl ?_, rfl⟩
    intro q
    show (g.underway.insert r st').find? q = _
    rw [Table.find?_insert]
    by_cases e : q = r
    · rw [if_pos e, if_pos e]
      rfl
    · rw [if_neg e, if_neg e, others q e]
  | finished o =>
    obtain ⟨s₁, st₁, tally, strides, concluded⟩ := follows
    have ends : Step w b c terms { g with site := s₁, underway := g.underway.insert r st₁ } _ :=
      .conclude (r := r) (t := tally) (by rw [Table.find?_insert, if_pos rfl])
    rw [concluded] at ends
    refine ⟨_, (steps_of_strides hg strides).tail ends,
      h.seen ht alone (ψ := .reviewed k o) trivial rfl rfl ?_, rfl⟩
    intro q
    show ((g.underway.insert r st₁).erase r).find? q = _
    rw [Table.find?_erase, Table.find?_insert]
    by_cases e : q = r
    · rw [if_pos e, if_pos e]
      rfl
    · rw [if_neg e, if_neg e, if_neg e, others q e]

/-- A review that begins is shown by its beginning and by what it does at once. -/
theorem Stage.Shows.begin (h : f.Shows c sys) (orderly : sys.Orderly) (hb : b.Gives terms.answers)
    {t : TaskId} {r : ResourceClass} {k : LockId} {s : Site L} {cycle : Cycle L}
    (ht : sys.tasks.find? t = some ⟨r, .entered k⟩)
    (begun : Cycle.begin w b c r sys.site = (s, cycle)) :
    ∃ f', Steps w b c terms f f' ∧ f'.Shows c ({ sys with site := s }.put t r (cycle.phase k)) ∧
      f'.snapshots = f.snapshots ++ [(r, f.site.queue.snapshot r)] := by
  have first : f.underway.find? r = none := by
    cases found : f.underway.find? r with
    | none => rfl
    | some st =>
      obtain ⟨t', φ, ht', under⟩ := h.underway.1 found
      cases orderly.alone ht rfl t' φ st ht' under
      cases ht.symm.trans ht'
      cases under
  have opens : Step w b c terms f _ := .begin first
  have follows := Cycle.begin_follows (w := w) (c := c) hb r f.site
  rw [h.site, begun, ← h.site] at follows
  obtain ⟨f', steps, shows', snaps⟩ := h.follow orderly ht rfl
    (g := { f with
      site := Cycle.opened r f.site
      underway := f.underway.insert r (Cycle.captured r f.site)
      snapshots := f.snapshots ++ [(r, f.site.queue.snapshot r)] })
    (by rw [Table.find?_insert, if_pos rfl])
    (fun q ne => by rw [Table.find?_insert, if_neg ne]) follows
  exact ⟨f', .head opens steps, shows', snaps⟩

/-- Of what tasks do by themselves, only the beginning of a review is seen. -/
theorem Stage.Shows.turn (h : f.Shows c sys) (orderly : sys.Orderly) (hb : b.Gives terms.answers)
    {t : TaskId} (turn : System.Turn w b c sys t sys') :
    ∃ f', Steps w b c terms f f' ∧ f'.Shows c sys' ∧
      f'.snapshots = f.snapshots ++ (sys.snapshot? (.step t)).toList := by
  have still : f.snapshots = f.snapshots ++ [] := (List.append_nil _).symm
  cases turn with
  | get ht =>
    rw [System.snapshot?_eq_none ht nofun]
    exact ⟨f, .refl, h.put ht rfl rfl _, still⟩
  | arrive ht =>
    rw [System.snapshot?_eq_none ht nofun]
    exact ⟨f, .refl, h.put ht rfl (by split <;> rfl) _, still⟩
  | enter ht _ =>
    rw [System.snapshot?_eq_none ht nofun]
    exact ⟨f, .refl, h.put ht rfl rfl _, still⟩
  | begin ht begun =>
    rw [System.snapshot?_entered ht, ← h.site]
    exact h.begin orderly hb ht begun
  | pass ht =>
    rw [System.snapshot?_eq_none ht nofun]
    exact ⟨f, .refl, h.put ht rfl rfl _, still⟩
  | release ht =>
    rw [System.snapshot?_eq_none ht nofun]
    exact ⟨f, .refl, h.put ht rfl rfl _, still⟩

/-- A review that gets an answer goes on from where it waited. -/
theorem Stage.Shows.answer (h : f.Shows c sys) (orderly : sys.Orderly)
    (hb : b.Gives terms.answers) {t : TaskId} {a : Answer}
    (allowed : ∀ q, sys.request? t = some q → terms.answers q a)
    (answered : sys.answer w b t a = some sys') :
    ∃ f', Steps w b c terms f f' ∧ f'.Shows c sys' ∧ f'.snapshots = f.snapshots := by
  obtain ⟨r, k, st, cursor, s, cycle, ht, resumed, rfl⟩ := System.turn_of_answer answered
  have asked : sys.request? t = some cursor.pause.request := by
    simp [System.request?, ht, Task.request?]
  obtain ⟨fits, warrants⟩ : (Phase.waiting k st cursor).Ready c := h.ready ht
  have follows := Cycle.resume_follows (w := w) hb r fits (s := f.site) warrants
    (allowed _ asked)
  rw [h.site, resumed, ← h.site] at follows
  exact h.follow orderly ht rfl (g := f) (h.underway.2 ⟨t, _, ht, rfl⟩) (fun _ _ => rfl) follows

/-- An action is shown by steps of the stage. -/
theorem Stage.Shows.act (h : f.Shows c sys) (orderly : sys.Orderly) (hb : b.Gives terms.answers)
    {a : Action} (allowed : terms.Allow sys a) (acted : sys.act w b c a = some sys') :
    ∃ f', Steps w b c terms f f' ∧ f'.Shows c sys' ∧
      f'.snapshots = f.snapshots ++ (sys.snapshot? a).toList := by
  have still : f.snapshots = f.snapshots ++ [] := (List.append_nil _).symm
  cases a with
  | move m =>
    cases acted
    have moved := h.withSite (m.apply w b sys.site)
    rw [← h.site] at moved ⊢
    exact ⟨_, .single (.move allowed), moved, still⟩
  | call r =>
    cases acted
    exact ⟨f, .refl, h.spawn orderly r, still⟩
  | callAll =>
    cases acted
    exact ⟨f, .refl, h.callEach orderly _, still⟩
  | receive =>
    obtain ⟨⟨q, line⟩, received, rfl⟩ := Option.map_eq_some_iff.1 acted
    rw [← h.site] at received
    have moved := h.withSite { sys.site with line }
    have spawned := moved.spawn (orderly.withSite _) q.resource
    rw [← h.site] at spawned ⊢
    exact ⟨_, .single (.receive received), spawned, still⟩
  | step t => exact h.turn orderly hb (System.turn_of_step acted)
  | answer t a =>
    obtain ⟨f', steps, shows', snaps⟩ := h.answer orderly hb allowed acted
    exact ⟨f', steps, shows', snaps.trans still⟩

variable {limiter : L} {line : RequestLine} {h : History L}

/-- Every run is shown on a stage. -/
theorem Run.shown (run : Run w b c terms (.idle limiter line) h sys) (hb : b.Gives terms.answers) :
    ∃ f, Stage.Steps w b c terms { site := { limiter, line } } f ∧ f.Shows c sys ∧
      f.snapshots = h.snapshots := by
  induction run with
  | start => exact ⟨_, .refl, .idle limiter line, rfl⟩
  | next run allowed acted ih =>
    obtain ⟨f, steps, shows', snaps⟩ := ih
    obtain ⟨f', more, shown, snap⟩ := shows'.act (run.orderly (.idle limiter line)) hb allowed acted
    refine ⟨f', steps.trans more, shown, ?_⟩
    rw [snap, snaps, History.snapshots_append]

/-- What holds of a stage without reviews and is kept by its steps holds of a stage that shows the
system. -/
theorem Run.keeps {P : Stage L → Prop}
    (step : ∀ f g, Stage.Step w b c terms f g → P f → P g)
    (begins : P { site := { limiter, line } })
    (run : Run w b c terms (.idle limiter line) h sys) (hb : b.Gives terms.answers) :
    ∃ f, P f ∧ f.Shows c sys ∧ f.snapshots = h.snapshots := by
  obtain ⟨f, steps, shown⟩ := run.shown hb
  exact ⟨f, steps.keeps step begins, shown⟩

end Runs

end Muster
