import Muster.Proofs.Stage
import Muster.Proofs.Stock

/-!
# The limiter and the queue agree

What is registered with the static limiter is what is in flight in the queue, together with what
the reviews under way have accepted. A review registers capacity when it accepts it and puts it in
flight when it ends, and ready work takes it out of both, so the capacities on both sides are the
same up to order. With identifiers that are new each time, nothing is ever replaced.

**Main statement.** `Run.usage_eq_inFlight`: in every run of a chain of engines and the fallback.
-/

namespace Muster

open Relation

/-! ## Capacity by identifier -/

namespace PlannedCapacity

/-- Each capacity is kept under its own identifier. -/
def Keyed (t : Table PlannedId PlannedCapacity) : Prop := ∀ id p, t.find? id = some p → p.id = id

/-- Puts capacities into a table, one after the other. -/
def store (planned : List PlannedCapacity) (t : Table PlannedId PlannedCapacity) :
    Table PlannedId PlannedCapacity :=
  planned.foldl (fun t p => t.insert p.id p) t

variable {t : Table PlannedId PlannedCapacity} {planned : List PlannedCapacity}

theorem Keyed.insert (h : Keyed t) (p : PlannedCapacity) : Keyed (t.insert p.id p) := by
  intro id x found
  rcases Table.find?_insert_cases found with ⟨rfl, rfl⟩ | ⟨-, old⟩
  · rfl
  · exact h id x old

theorem Keyed.store (h : Keyed t) (planned : List PlannedCapacity) : Keyed (store planned t) := by
  induction planned generalizing t with
  | nil => exact h
  | cons p planned ih => exact ih (h.insert p)

theorem mem_store {p : PlannedCapacity} (h : p ∈ (store planned t).values) :
    p ∈ planned ∨ p ∈ t.values := by
  induction planned generalizing t with
  | nil => exact .inr h
  | cons x planned ih =>
    rcases ih h with new | old
    · exact .inl (List.mem_cons_of_mem _ new)
    · obtain ⟨id, found⟩ := Table.mem_values.1 old
      rcases Table.find?_insert_cases found with ⟨-, rfl⟩ | ⟨-, found⟩
      · exact .inl List.mem_cons_self
      · exact .inr (Table.mem_values.2 ⟨id, found⟩)

theorem contains_store (planned : List PlannedCapacity) (t : Table PlannedId PlannedCapacity)
    (id : PlannedId) : (store planned t).contains id = true ↔
      t.contains id = true ∨ id ∈ planned.map (·.id) := by
  induction planned generalizing t with
  | nil => simp [store]
  | cons p planned ih =>
    have inserted : (t.insert p.id p).contains id = true ↔ t.contains id = true ∨ id = p.id := by
      simp only [Table.contains, Table.find?_insert]
      by_cases e : id = p.id <;> simp [e]
    rw [List.map_cons, List.mem_cons, ← or_assoc, ← inserted]
    exact ih _

theorem Keyed.erase (h : Keyed t) (id : PlannedId) : Keyed (t.erase id) := by
  intro id' p found
  exact h id' p (Table.find?_of_erase found).2

theorem Keyed.ids_eq (h : Keyed t) : t.values.map (·.id) = t.keys := by
  unfold Table.values Table.keys
  rw [List.map_map]
  exact List.map_congr_left fun e he => h e.1 e.2 (Table.find?_eq_some_iff.2 he)

theorem Keyed.ids_nodup (h : Keyed t) : (t.values.map (·.id)).Nodup := by
  rw [h.ids_eq]
  exact t.keys_nodup

theorem Keyed.find?_iff (h : Keyed t) {id : PlannedId} {p : PlannedCapacity} :
    t.find? id = some p ↔ p.id = id ∧ p ∈ t.values := by
  refine ⟨fun found => ⟨h id p found, Table.mem_values.2 ⟨id, found⟩⟩, ?_⟩
  rintro ⟨e, mem⟩
  obtain ⟨id', found⟩ := Table.mem_values.1 mem
  rw [← e, h id' p found]
  exact found

theorem Keyed.find?_eq_none (h : Keyed t) {id : PlannedId} (new : id ∉ t.values.map (·.id)) :
    t.find? id = none := by
  cases found : t.find? id with
  | none => rfl
  | some p =>
    obtain ⟨e, mem⟩ := h.find?_iff.1 found
    exact absurd (List.mem_map.2 ⟨p, mem, e⟩) new

/-- Capacities with new identifiers replace nothing. -/
theorem Keyed.store_perm (h : Keyed t)
    (new : (planned.map (·.id) ++ t.values.map (·.id)).Nodup) :
    (PlannedCapacity.store planned t).values.Perm (planned ++ t.values) := by
  induction planned generalizing t with
  | nil => exact .refl _
  | cons p planned ih =>
    rw [List.map_cons, List.cons_append, List.nodup_cons] at new
    obtain ⟨first, rest⟩ := new
    have absent : t.find? p.id = none :=
      h.find?_eq_none fun mem => first (List.mem_append_right _ mem)
    have inserted := Table.values_insert_new absent p
    have still : (planned.map (·.id) ++ (t.insert p.id p).values.map (·.id)).Nodup := by
      have ids := (inserted.map (·.id)).append_left (planned.map (·.id))
      refine ids.nodup_iff.2 ?_
      rw [List.map_cons]
      exact List.perm_middle.nodup_iff.2 (List.nodup_cons.2 ⟨first, rest⟩)
    exact (ih (h.insert p) still).trans ((inserted.append_left planned).trans List.perm_middle)

end PlannedCapacity

/-! ## The invariant -/

open PlannedCapacity

/-- What is registered is what is in flight together with what was accepted, and was created. -/
structure Balanced (usage inFlight : Table PlannedId PlannedCapacity)
    (accepted created : List PlannedCapacity) : Prop where
  usageKeyed : Keyed usage
  flightKeyed : Keyed inFlight
  perm : usage.values.Perm (inFlight.values ++ accepted)
  known : ∀ p ∈ usage.values, p.id ∈ created.map (·.id)

namespace Balanced

variable {usage inFlight : Table PlannedId PlannedCapacity}
  {accepted created planned : List PlannedCapacity}

theorem reorder (h : Balanced usage inFlight accepted created) {accepted' : List PlannedCapacity}
    (perm : accepted.Perm accepted') : Balanced usage inFlight accepted' created :=
  ⟨h.usageKeyed, h.flightKeyed, h.perm.trans (perm.append_left _), h.known⟩

/-- Capacity that is created need not be registered. -/
theorem create (h : Balanced usage inFlight accepted created) (planned : List PlannedCapacity) :
    Balanced usage inFlight accepted (created ++ planned) := by
  refine ⟨h.usageKeyed, h.flightKeyed, h.perm, ?_⟩
  intro p hp
  rw [List.map_append]
  exact List.mem_append_left _ (h.known p hp)

/-- New capacity is registered and accepted at the same time. -/
theorem accept (h : Balanced usage inFlight accepted created)
    (fresh : ((created ++ planned).map (·.id)).Nodup) :
    Balanced (store planned usage) inFlight (planned ++ accepted) (created ++ planned) := by
  rw [List.map_append, List.nodup_append] at fresh
  obtain ⟨-, distinct, apart⟩ := fresh
  have new : (planned.map (·.id) ++ usage.values.map (·.id)).Nodup := by
    refine List.nodup_append.2 ⟨distinct, h.usageKeyed.ids_nodup, ?_⟩
    intro id hid id' hid' e
    obtain ⟨p, hp, rfl⟩ := List.mem_map.1 hid'
    exact apart _ (h.known p hp) id hid e.symm
  have stored := h.usageKeyed.store_perm new
  refine ⟨h.usageKeyed.store planned, h.flightKeyed, ?_, ?_⟩
  · have joined := stored.trans (h.perm.append_left planned)
    rw [← List.append_assoc] at joined ⊢
    exact joined.trans (List.perm_append_comm.append_right accepted)
  · intro p hp
    rw [List.map_append]
    rcases List.mem_append.1 (stored.mem_iff.1 hp) with new | old
    · exact List.mem_append_right _ (List.mem_map.2 ⟨p, new, rfl⟩)
    · exact List.mem_append_left _ (h.known p old)

/-- Accepted capacity is put in flight. -/
theorem record (h : Balanced usage inFlight (planned ++ accepted) created) :
    Balanced usage (store planned inFlight) accepted created := by
  have ids : ((inFlight.values ++ (planned ++ accepted)).map (·.id)).Nodup :=
    (h.perm.map (·.id)).nodup_iff.1 h.usageKeyed.ids_nodup
  have front : (inFlight.values ++ (planned ++ accepted)).Perm
      ((planned ++ inFlight.values) ++ accepted) := by
    rw [← List.append_assoc]
    exact List.perm_append_comm.append_right accepted
  have new : (planned.map (·.id) ++ inFlight.values.map (·.id)).Nodup := by
    have ids := (front.map (·.id)).nodup_iff.1 ids
    rw [List.map_append, List.map_append] at ids
    exact (List.nodup_append.1 ids).1
  refine ⟨h.usageKeyed, h.flightKeyed.store planned, ?_, h.known⟩
  exact (h.perm.trans front).trans ((h.flightKeyed.store_perm new).symm.append_right accepted)

/-- Capacity in flight is taken out of both. -/
theorem retire (h : Balanced usage inFlight accepted created) {id : PlannedId} {p : PlannedCapacity}
    (flying : inFlight.find? id = some p) :
    Balanced (usage.erase id) (inFlight.erase id) accepted created := by
  have mine : inFlight.values.Perm (p :: (inFlight.erase id).values) :=
    Table.values_perm_of_find? flying
  have listed : p ∈ usage.values :=
    h.perm.mem_iff.2 (List.mem_append_left _ (mine.mem_iff.2 List.mem_cons_self))
  have registered : usage.find? id = some p :=
    h.usageKeyed.find?_iff.2 ⟨h.flightKeyed id p flying, listed⟩
  have theirs : usage.values.Perm (p :: (usage.erase id).values) :=
    Table.values_perm_of_find? registered
  refine ⟨h.usageKeyed.erase id, h.flightKeyed.erase id, ?_, ?_⟩
  · have both := (theirs.symm.trans h.perm).trans (mine.append_right accepted)
    exact both.cons_inv
  · intro x hx
    exact h.known x (theirs.mem_iff.2 (List.mem_cons_of_mem _ hx))

/-- Look-ups on both sides agree. -/
theorem find?_iff (h : Balanced usage inFlight accepted created) {id : PlannedId}
    {p : PlannedCapacity} :
    usage.find? id = some p ↔ inFlight.find? id = some p ∨ p.id = id ∧ p ∈ accepted := by
  rw [h.usageKeyed.find?_iff, h.flightKeyed.find?_iff, h.perm.mem_iff, List.mem_append, and_or_left]

end Balanced

/-! ## Steps -/

theorem StaticLimiter.usage_registers (planned : List PlannedCapacity) (l : StaticLimiter) :
    (planned.foldl Engine.register l).usage = store planned l.usage := by
  induction planned generalizing l with
  | nil => rfl
  | cons p planned ih => exact ih (l.register p)

namespace Stage

/-- What the reviews under way have accepted. -/
def accepted {L : Type} (f : Stage L) : List PlannedCapacity :=
  f.underway.values.flatMap (·.planned)

/-- What is accepted by the review of a class, and by the others. -/
theorem accepted_perm {L : Type} {f : Stage L} {r : ResourceClass} {st : ReviewState}
    (found : f.underway.find? r = some st) :
    f.accepted.Perm (st.planned ++ (f.underway.erase r).values.flatMap (·.planned)) :=
  (Table.values_perm_of_find? found).flatMap_right _

/-- The two stores of the site agree, if identifiers were never used twice. -/
def Agrees (f : Stage StaticLimiter) : Prop :=
  (f.site.created.map (·.id)).Nodup →
    Balanced f.site.limiter.usage f.site.queue.inFlight f.accepted f.site.created

variable {w : Wiring} {b : Behaviour} {c : Chain StaticLimiter} {f g : Stage StaticLimiter}

/-- Whatever leaves the stock alone leaves it balanced. -/
theorem Agrees.same (h : f.Agrees) {s : Site StaticLimiter} (same : f.site.SameStock s) :
    Agrees { f with site := s } := by
  intro fresh
  rw [show s.created = f.site.created from same.created] at fresh
  show Balanced s.limiter.usage s.queue.inFlight f.accepted s.created
  rw [same.limiter, same.queue.inFlight, same.created]
  exact h fresh

/-- Others take out of both stores what they take out of one. -/
theorem Agrees.change (h : f.Agrees) {s : Site StaticLimiter} (change : f.site.Changes s) :
    Agrees { f with site := s } := by
  cases change with
  | same same => exact h.same same
  | spends spends =>
    intro fresh
    have balanced := h fresh
    rw [← spends.inFlight] at balanced
    exact balanced
  | retires lands =>
    intro fresh
    have balanced := (h fresh).retire lands.flying
    rw [← lands.inFlight] at balanced
    exact balanced

/-- A review goes on with what it has accepted. -/
theorem Agrees.goOn (h : f.Agrees) {r : ResourceClass} {st st' : ReviewState}
    (found : f.underway.find? r = some st) (planned : st'.planned = st.planned) :
    Agrees { f with underway := f.underway.insert r st' } := by
  intro fresh
  have inserted := (f.underway.values_insert_perm r st').flatMap_right ReviewState.planned
  rw [List.flatMap_cons, planned] at inserted
  exact (h fresh).reorder ((accepted_perm found).trans inserted.symm)

/-- An answer is taken in: what it brings is registered and accepted, or only created. -/
theorem Agrees.accept (h : f.Agrees) (tracker : w.tracker.KeepsCapacity) {r : ResourceClass}
    {st st' : ReviewState} (found : f.underway.find? r = some st) {q : Request} {a : Answer}
    {s : Site StaticLimiter} (accepted : Engine.accept w q a f.site st = (s, st')) :
    Agrees { f with site := s, underway := f.underway.insert r st' } := by
  have queue := Engine.accept_queue tracker q a f.site st
  rw [accepted] at queue
  cases a with
  | error e =>
    obtain ⟨same, state⟩ := Engine.accept_error (w := w) q e f.site st
    rw [accepted] at same state
    exact (h.same same).goOn found (congrArg _ state)
  | ok planned =>
    obtain ⟨created, ⟨-, limiter, rfl⟩ | ⟨-, limiter, rfl⟩⟩ := Engine.accept_stock accepted
    · refine Agrees.goOn (f := { f with site := s }) ?_ found rfl
      intro fresh
      show Balanced s.limiter.usage s.queue.inFlight f.accepted s.created
      have fresh : (s.created.map (·.id)).Nodup := fresh
      rw [created] at fresh ⊢
      rw [limiter, queue.inFlight]
      rw [List.map_append] at fresh
      exact (h (List.nodup_append.1 fresh).1).create planned
    · intro fresh
      have fresh : (s.created.map (·.id)).Nodup := fresh
      show Balanced s.limiter.usage s.queue.inFlight
        ((f.underway.insert r _).values.flatMap (·.planned)) s.created
      rw [created] at fresh ⊢
      have before : (f.site.created.map (·.id)).Nodup := by
        rw [List.map_append] at fresh
        exact (List.nodup_append.1 fresh).1
      have inserted := (f.underway.values_insert_perm r
        (st.recordPlanned q.resource q.provider.id planned).2).flatMap_right ReviewState.planned
      rw [List.flatMap_cons, ReviewState.planned_recordPlanned] at inserted
      rw [limiter, queue.inFlight, StaticLimiter.usage_registers]
      refine ((h before).accept fresh).reorder (.trans ?_ inserted.symm)
      have split := (accepted_perm found).append_left planned
      rw [← List.append_assoc] at split
      exact split.trans (List.perm_append_comm.append_right _)

/-- A stride keeps the stores in agreement. -/
theorem Agrees.stride (h : f.Agrees) (tracker : w.tracker.KeepsCapacity) (plain : c.Plain)
    {gives : Answering} {r : ResourceClass} {st : ReviewState}
    (found : f.underway.find? r = some st) {y : Site StaticLimiter × ReviewState}
    (stride : Stride w b c gives (f.site, st) y) :
    Agrees { f with site := y.1, underway := f.underway.insert r y.2 } := by
  cases stride with
  | @headroom _ _ e p r' _ _ =>
    have same := Site.askHeadroom_same b (some st.review) p r' (st.plannedFor p.id) f.site
    exact (h.same same).goOn found rfl
  | limit slot _ => exact h.goOn found rfl
  | @request _ _ _ q _ _ _ =>
    have same : f.site.SameStock (f.site.askCapacity b (some st.review) q).2 := ⟨.refl _, rfl, rfl⟩
    exact (h.same same).goOn found rfl
  | accept _ _ => exact h.accept tracker found rfl
  | custom mem => exact absurd mem (plain _ _ _)
  | report e => exact (h.same (Site.emit_same w e f.site)).goOn found rfl

/-- A review begins without having accepted anything. -/
theorem Agrees.begin (h : f.Agrees) {r : ResourceClass} (none : f.underway.find? r = none)
    (snapshots : List (ResourceClass × Snapshot)) :
    Agrees ⟨Cycle.opened r f.site, f.underway.insert r (Cycle.captured r f.site), snapshots⟩ := by
  intro fresh
  have inserted := (Table.values_insert_new none (Cycle.captured r f.site)).flatMap_right
    ReviewState.planned
  exact (h fresh).reorder inserted.symm

/-- A review ends: what it has accepted is in flight now. -/
theorem Agrees.conclude (h : f.Agrees) {r : ResourceClass} {st : ReviewState}
    (found : f.underway.find? r = some st) (w : Wiring) (t : Tally) :
    Agrees { f with
      site := (Cycle.conclude w r f.site st t).1
      underway := f.underway.erase r } := by
  have same := Cycle.conclude_stock w r f.site st t
  refine Agrees.same (f := { f with
    site := { f.site with queue := f.site.queue.recordPending st.planned }
    underway := f.underway.erase r }) ?_ same
  intro fresh
  exact ((h fresh).reorder (accepted_perm found)).record

/-- Every step of a stage keeps the stores in agreement. -/
theorem Step.agrees (tracker : w.tracker.KeepsCapacity) (plain : c.Plain) {gives : Answering}
    (step : Step w b c { moves := Move.Whole, answers := gives } f g) (h : f.Agrees) :
    g.Agrees := by
  cases step with
  | move whole =>
    exact Move.keeps_of_whole (P := fun s => Agrees { f with site := s })
      (fun s _ change agrees => Agrees.change (f := { f with site := s }) agrees change) whole h
  | receive _ => exact h.same ⟨.refl _, rfl, rfl⟩
  | begin none => exact h.begin none _
  | stride found stride => exact h.stride tracker plain found stride
  | conclude found => exact h.conclude found w _

end Stage

/-! ## Runs -/

/-- The capacity is accepted by a review that is under way. -/
def System.Accepted {L : Type} (sys : System L) (p : PlannedCapacity) : Prop :=
  ∃ t r k st cursor, sys.tasks.find? t = some ⟨r, .waiting k st cursor⟩ ∧ p ∈ st.planned

theorem Stage.Shows.mem_accepted {L : Type} [Limiter L] {f : Stage L} {c : Chain L} {sys : System L}
    (h : f.Shows c sys) {p : PlannedCapacity} : p ∈ f.accepted ↔ sys.Accepted p := by
  unfold Stage.accepted
  rw [List.mem_flatMap]
  constructor
  · rintro ⟨st, mem, hp⟩
    obtain ⟨r, found⟩ := Table.mem_values.1 mem
    obtain ⟨t, φ, ht, under⟩ := h.underway.1 found
    cases φ with
    | waiting k _ cursor =>
      cases under
      exact ⟨t, r, k, st, cursor, ht, hp⟩
    | _ => cases under
  · rintro ⟨t, r, k, st, cursor, ht, hp⟩
    exact ⟨st, Table.mem_values.2 ⟨r, h.underway.2 ⟨t, _, ht, rfl⟩⟩, hp⟩

/-- What is registered is in flight or accepted by a review under way, capacity by capacity. While
no review waits for a provider, as many units are in use as are in flight. -/
theorem Run.usage_eq_inFlight {w : Wiring} {b : Behaviour} {c : Chain StaticLimiter}
    (tracker : w.tracker.KeepsCapacity) (plain : c.Plain) {ceilings : Table Slot Count}
    {line : RequestLine} {h : History StaticLimiter} {sys : System StaticLimiter}
    (run : Run w b c { moves := Move.Whole } (.idle { ceilings } line) h sys)
    (fresh : (sys.site.created.map (·.id)).Nodup) :
    (∀ id p, sys.site.limiter.usage.find? id = some p ↔
      sys.site.queue.inFlight.find? id = some p ∨ p.id = id ∧ sys.Accepted p) ∧
    ((∀ t, sys.request? t = none) → ∀ p r, sys.site.limiter.inUse p r =
      Count.total (((sys.site.queue.inFlightOf r).filter (·.provider == p)).map (·.units))) := by
  have begins : Stage.Agrees { site := ({ limiter := { ceilings }, line } : Site StaticLimiter) } :=
    fun _ => ⟨fun _ _ found => (nomatch found), fun _ _ found => (nomatch found), .refl _,
      fun _ mem => (nomatch mem)⟩
  obtain ⟨f, agrees, shows', -⟩ := run.keeps (fun _ _ step => step.agrees tracker plain) begins
    (fun _ _ _ _ _ => trivial)
  unfold Stage.Agrees at agrees
  rw [shows'.site] at agrees
  have balanced := agrees fresh
  have same : ∀ id p, sys.site.limiter.usage.find? id = some p ↔
      sys.site.queue.inFlight.find? id = some p ∨ p.id = id ∧ sys.Accepted p := by
    intro id p
    rw [balanced.find?_iff, shows'.mem_accepted]
  refine ⟨same, ?_⟩
  intro quiet p r
  have none : ∀ p, ¬ sys.Accepted p := by
    rintro p ⟨t, r, k, st, cursor, ht, -⟩
    have asks := quiet t
    unfold System.request? at asks
    rw [ht] at asks
    cases asks
  have equal : sys.site.limiter.usage = sys.site.queue.inFlight := by
    refine Table.ext_find? fun id => Option.ext ?_
    intro p
    rw [same, or_iff_left fun h => none p h.2]
  unfold StaticLimiter.inUse StaticLimiter.registered Queue.inFlightOf
  rw [equal, List.filter_filter]

theorem System.request?_eq_none {L : Type} {sys : System L}
    (h : sys.tasks.values.all (·.request?.isNone) = true) (t : TaskId) :
    sys.request? t = none := by
  simp only [System.request?]
  cases found : sys.tasks.find? t with
  | none => rfl
  | some task =>
    exact Option.isNone_iff_eq_none.1 (List.all_eq_true.1 h task (Table.mem_values.2 ⟨t, found⟩))

/-- After the refusal nobody waits: the one unit that was accepted is in use and in flight. -/
theorem inUse_eq_of_sample : ∃ h sys, Run Sample.wiring Sample.behaviour Sample.chain
    { moves := Move.Whole } Sample.start h sys ∧ (sys.site.created.map (·.id)).Nodup ∧
    sys.site.queue.inFlight.size = 1 ∧ sys.site.limiter.inUse (.ofNat 1) .unlabeled =
      Count.total (((sys.site.queue.inFlightOf .unlabeled).filter
        (·.provider == .ofNat 1)).map (·.units)) := by
  obtain ⟨h, sys, done, fresh, flying, quiet⟩ : ∃ h sys, Sample.start.replay Sample.wiring
      Sample.behaviour Sample.chain Sample.refusal [] = some (h, sys) ∧
      (sys.site.created.map (·.id)).Nodup ∧ sys.site.queue.inFlight.size = 1 ∧
      ∀ t, sys.request? t = none := by
    refine ⟨_, _, rfl, by decide, by decide, System.request?_eq_none ?_⟩
    rfl
  have run := Run.of_replay done .start (Sample.allowed { moves := Move.Whole }
    (fun _ => trivial) (fun _ _ => trivial))
  have agree := Run.usage_eq_inFlight Tracker.keepsCapacity_queue Sample.plain run fresh
  exact ⟨h, sys, run, fresh, flying, agree.2 quiet (.ofNat 1) .unlabeled⟩

end Muster
