import Muster.Proofs.Operations

/-!
# The stock of a site

The stock is the capacity of the queue, in flight and idle, what is registered with the limiter, and
what was created. Most of what happens on a site leaves the stock alone. Others spend idle units and
retire capacity; reviews create capacity, register it and put it in flight.

**Main statements.** `Move.changes`: what others can do to the stock. `Engine.accept_stock`: what an
answer does to it.
-/

namespace Muster

open Relation

namespace PlannedCapacity

/-- The units of a capacity that passes a test. -/
def unitsIf (test : PlannedCapacity → Bool) (p : PlannedCapacity) : Nat :=
  if test p then p.units.toNat else 0

variable {test : PlannedCapacity → Bool} {planned : List PlannedCapacity}

theorem sum_unitsIf_all (h : ∀ p ∈ planned, test p = true) :
    (planned.map (unitsIf test)).sum = Count.exactSum (planned.map (·.units)) := by
  induction planned with
  | nil => rfl
  | cons p planned ih =>
    have first : unitsIf test p = p.units.toNat := if_pos (h p List.mem_cons_self)
    rw [List.map_cons, List.sum_cons, ih fun p hp => h p (List.mem_cons_of_mem _ hp), first]
    rfl

theorem sum_unitsIf_none (h : ∀ p ∈ planned, test p = false) :
    (planned.map (unitsIf test)).sum = 0 := by
  refine List.sum_eq_zero_iff_forall_eq_nat.2 ?_
  intro n hn
  obtain ⟨p, hp, rfl⟩ := List.mem_map.1 hn
  unfold unitsIf
  rw [h p hp]
  rfl

end PlannedCapacity

namespace Queue

/-- The same capacity is in flight, and as many units are idle. -/
structure SameCapacity (q q' : Queue) : Prop where
  inFlight : q'.inFlight = q.inFlight
  available : q'.available = q.available

variable {q q' q'' : Queue}

theorem SameCapacity.refl (q : Queue) : q.SameCapacity q := ⟨rfl, rfl⟩

theorem SameCapacity.trans (h : q.SameCapacity q') (h' : q'.SameCapacity q'') :
    q.SameCapacity q'' :=
  ⟨h'.inFlight.trans h.inFlight, h'.available.trans h.available⟩

theorem makeBuildable_same {id : WorkItemId} {ready : Option WorkItem}
    (h : q.makeBuildable id = .ok (q', ready)) : q.SameCapacity q' := by
  obtain ⟨e, -, ⟨-, rfl⟩ | rfl⟩ := makeBuildable_ok h
  · exact .refl q'
  · exact ⟨rfl, rfl⟩

theorem cancel_same {id : WorkItemId} (h : q.cancel id = some q') : q.SameCapacity q' := by
  rw [cancel_some h]
  exact ⟨rfl, rfl⟩

theorem bequeath_same (q : Queue) (r : ResourceClass) (p : PlannedId) :
    q.SameCapacity (q.bequeath r p) := by
  simp only [bequeath]
  split
  · exact .refl q
  · exact ⟨rfl, rfl⟩

theorem track_same {link : Link} (h : q.track link = .ok q') : q.SameCapacity q' := by
  obtain ⟨e, -, rfl⟩ := track_ok h
  exact ⟨rfl, rfl⟩

/-- One idle unit of a class is spent. -/
structure Spends (r : ResourceClass) (q q' : Queue) : Prop where
  idle : q.availableOf r ≠ 0
  inFlight : q'.inFlight = q.inFlight
  available : q'.available = q.available.insert r (q.availableOf r - 1)

theorem assign_spends {id : WorkItemId} (h : q.assign id = .ok q') :
    ∃ e, q.items.find? id = some e ∧ q.Spends e.item.resource q' := by
  obtain ⟨e, found, -, idle, ⟨-, rfl⟩ | ⟨p, -, rfl⟩⟩ := assign_ok h
  · exact ⟨e, found, idle, rfl, rfl⟩
  · have same := (q.spend id e).bequeath_same e.item.resource p
    exact ⟨e, found, idle, same.inFlight, same.available⟩

/-- Capacity in flight comes online. -/
structure Lands (p : PlannedCapacity) (id : PlannedId) (q q' : Queue) : Prop where
  flying : q.inFlight.find? id = some p
  inFlight : q'.inFlight = q.inFlight.erase id
  available : q'.available = q.available.insert p.resource (q.availableOf p.resource + p.units)

theorem online_lands {id : PlannedId} (h : q.online id = .ok q') : ∃ p, q.Lands p id q' := by
  simp only [online] at h
  split at h
  · cases h
  · rename_i p flying
    cases h
    exact ⟨p, flying, rfl, rfl⟩

end Queue

/-- The tracker may change items and links, but not the capacity. -/
def Tracker.KeepsCapacity (tracker : Tracker) : Prop :=
  ∀ links q link q', tracker links q link = .ok q' → q.SameCapacity q'

theorem Tracker.keepsCapacity_queue : Tracker.queue.KeepsCapacity :=
  fun _ _ _ _ h => Queue.track_same h

theorem Tracker.keepsCapacity_failing : Tracker.failing.KeepsCapacity :=
  fun _ _ _ _ h => nomatch h

variable {L : Type}

namespace Site

/-- The stock is the same. -/
structure SameStock (s s' : Site L) : Prop where
  queue : s.queue.SameCapacity s'.queue
  limiter : s'.limiter = s.limiter
  created : s'.created = s.created

variable {s s' s'' : Site L} {w : Wiring} {b : Behaviour}

namespace SameStock

theorem refl (s : Site L) : s.SameStock s := ⟨.refl _, rfl, rfl⟩

theorem trans (h : s.SameStock s') (h' : s'.SameStock s'') : s.SameStock s'' :=
  ⟨h.queue.trans h'.queue, h'.limiter.trans h.limiter, h'.created.trans h.created⟩

/-- The queue changes, though not its capacity. -/
theorem withQueue {q : Queue} (h : s.queue.SameCapacity q) : s.SameStock { s with queue := q } :=
  ⟨h, rfl, rfl⟩

end SameStock

/-! ## What leaves the stock alone -/

theorem emit_same (w : Wiring) (e : Event) (s : Site L) : s.SameStock (s.emit w e) := by
  obtain ⟨journal, same⟩ := emit_frame w e s
  rw [same]
  exact ⟨.refl _, rfl, rfl⟩

theorem request_same (w : Wiring) (r : ResourceClass) (source : ReviewSource)
    (item : Option WorkItemId) (s : Site L) : s.SameStock (s.request w r source item).2 := by
  simp only [request]
  rcases s.line.request w.fastPath r source item with ⟨outcome, event, line⟩
  have moved : s.SameStock { s with line } := ⟨.refl _, rfl, rfl⟩
  cases event with
  | none => exact moved
  | some e => exact moved.trans (emit_same w e _)

theorem askHeadroom_same (b : Behaviour) (review : Option ReviewId) (p : Provider)
    (r : ResourceClass) (planned : Count) (s : Site L) :
    s.SameStock (s.askHeadroom b review p r planned).2 :=
  ⟨.refl _, rfl, rfl⟩

theorem announceTo_same (filter : Filter) (item : WorkItem) (ps : Registry) (s : Site L) :
    s.SameStock (s.announceTo w b filter item ps).2 := by
  induction ps generalizing s with
  | nil => exact .refl s
  | cons p rest ih =>
    simp only [announceTo]
    split
    · have asked := askHeadroom_same b none p item.resource 0 s
      split
      · rename_i s₁ said
        rw [said] at asked
        exact asked.trans (request_same w item.resource .fastPath (some item.id) s₁)
      · rename_i s₁ _ said
        rw [said] at asked
        exact asked.trans (ih s₁)
    · exact ih s

theorem announce_same (t : Trigger) (item : WorkItem) (s : Site L) :
    s.SameStock (s.announce w b t item).2 := by
  simp only [announce]
  split
  · exact announceTo_same t.filter item t.providers s
  · exact .refl s

theorem notify_same (item : WorkItem) (s : Site L) : s.SameStock (s.notify w b item) := by
  simp only [notify]
  split
  · exact announce_same _ item s
  · exact .refl s

theorem makeBuildable_same (id : WorkItemId) (s : Site L) :
    s.SameStock (s.makeBuildable w b id).2 := by
  simp only [makeBuildable]
  split
  · exact .refl s
  · rename_i q ready h
    have moved := SameStock.withQueue (Queue.makeBuildable_same h)
    cases ready with
    | none => exact moved
    | some item => exact moved.trans (notify_same item _)

theorem submit_same (item : WorkItem) (s : Site L) : s.SameStock (s.submit item) :=
  .withQueue ⟨rfl, rfl⟩

theorem cancel_same (id : WorkItemId) (s : Site L) : s.SameStock (s.cancel id).2 := by
  simp only [cancel]
  split
  · rename_i q h
    exact .withQueue (Queue.cancel_same h)
  · exact .refl s

theorem tracks_queue (hw : w.tracker.KeepsCapacity) (links : List Link) (s : Site L) :
    s.queue.SameCapacity (links.foldl (track w) s).queue := by
  induction links generalizing s with
  | nil => exact .refl _
  | cons link links ih =>
    have kept : s.queue.SameCapacity (s.track w link).queue := by
      simp only [track]
      split
      · rename_i q h
        exact hw _ _ _ _ h
      · exact .refl _
    exact kept.trans (ih (s.track w link))

/-! ## What changes the stock -/

theorem online_changes (id : PlannedId) (s : Site L) :
    (s.online id).2 = s ∨
      ∃ q p, s.queue.Lands p id q ∧ (s.online id).2 = { s with queue := q } := by
  simp only [online]
  split
  · rename_i q h
    obtain ⟨p, lands⟩ := Queue.online_lands h
    exact .inr ⟨q, p, lands, rfl⟩
  · exact .inl rfl

variable [Limiter L]

/-- The ways in which others change the stock. -/
inductive Changes (s : Site L) : Site L → Prop
  | same {s' : Site L} : s.SameStock s' → Changes s s'
  | spends {q r} : s.queue.Spends r q → Changes s { s with queue := q }
  /-- Capacity comes online and is given back to the limiter. -/
  | retires {q p id} : s.queue.Lands p id q →
      Changes s { s with queue := q, limiter := Limiter.release s.limiter id }

theorem assign_changes (s : Site L) (id : WorkItemId) : s.Changes (s.assign id).2 := by
  simp only [assign]
  split
  · rename_i q h
    obtain ⟨e, -, spends⟩ := Queue.assign_spends h
    exact .spends spends
  · exact .same (.refl s)

theorem retire_changes (s : Site L) (id : PlannedId) : s.Changes (s.retire id) := by
  simp only [retire, online]
  cases h : s.queue.online id with
  | ok q =>
    obtain ⟨p, lands⟩ := Queue.online_lands h
    exact .retires lands
  | error e => exact .same (.refl s)

theorem retires_changes (ids : List PlannedId) (s : Site L) :
    ReflTransGen Changes s (ids.foldl retire s) := by
  induction ids generalizing s with
  | nil => exact .refl
  | cons id ids ih => exact .head (retire_changes s id) (ih _)

theorem assignAll_changes (ids : List WorkItemId) (s : Site L) :
    ReflTransGen Changes s (assignAll ids s) := by
  induction ids generalizing s with
  | nil => exact .refl
  | cons id ids ih =>
    have assigned := assign_changes s id
    simp only [assignAll]
    split
    · rename_i s₁ h
      rw [h] at assigned
      exact .head assigned (ih s₁)
    · rename_i s₁ h
      rw [h] at assigned
      exact .single assigned

theorem runReadyWork_changes (r : ResourceClass) (s : Site L) :
    ReflTransGen Changes s (s.runReadyWork r) :=
  (retires_changes _ s).trans (assignAll_changes _ _)

end Site

/-- The move does not bring capacity online without giving it back, or give it back before. -/
def Move.Whole : Move → Prop
  | online _ | release _ => False
  | _ => True

/-- What others do to the stock, apart from bringing capacity online and giving it back by hand. -/
theorem Move.changes [Limiter L] {w : Wiring} {b : Behaviour} {m : Move} (whole : m.Whole)
    (s : Site L) : ReflTransGen Site.Changes s (m.apply w b s) := by
  cases m with
  | submit item => exact .single (.same (Site.submit_same item s))
  | submitBuildable item =>
    exact .single (.same ((Site.submit_same item s).trans (Site.makeBuildable_same item.id _)))
  | makeBuildable id => exact .single (.same (Site.makeBuildable_same id s))
  | cancel id => exact .single (.same (Site.cancel_same id s))
  | assign id => exact .single (Site.assign_changes s id)
  | online id => cases whole
  | release id => cases whole
  | runReadyWork r => exact Site.runReadyWork_changes r s
  | request r source item => exact .single (.same (Site.request_same w r source item s))

section Keeping

variable [Limiter L] {w : Wiring} {b : Behaviour} {P : Site L → Prop} {m : Move} {s : Site L}

/-- What every change of the stock keeps, a whole move keeps. -/
theorem Move.keeps_of_whole (change : ∀ s s', Site.Changes s s' → P s → P s') (whole : m.Whole)
    (hs : P s) : P (m.apply w b s) := by
  have changes : ReflTransGen Site.Changes s (m.apply w b s) := Move.changes whole s
  generalize m.apply w b s = s' at changes ⊢
  induction changes with
  | refl => exact hs
  | tail _ h ih => exact change _ _ h ih

/-- What the changes of the stock keep, online and released by hand as well, every move keeps. -/
theorem Move.keeps (change : ∀ s s', Site.Changes s s' → P s → P s')
    (online : ∀ s q p id, Queue.Lands p id s.queue q → P s → P { s with queue := q })
    (release : ∀ s id, P s → P { s with limiter := Limiter.release s.limiter id })
    (hs : P s) : P (m.apply w b s) := by
  cases m with
  | online id =>
    show P (s.online id).2
    rcases Site.online_changes id s with e | ⟨q, p, lands, e⟩
    · rw [e]
      exact hs
    · rw [e]
      exact online s q p id lands hs
  | release id => exact release s id hs
  | _ => exact Move.keeps_of_whole change trivial hs

/-- Others create no capacity. -/
theorem Move.created_eq (m : Move) (s : Site L) : (m.apply w b s).created = s.created := by
  refine Move.keeps (P := fun s' => s'.created = s.created) ?_ (fun _ _ _ _ _ h => h)
    (fun _ _ h => h) rfl
  intro s₁ s₂ change h
  cases change with
  | same same => exact same.created.trans h
  | spends _ => exact h
  | retires _ => exact h

end Keeping

/-! ## What reviews do to the stock -/

section Reviews

variable {w : Wiring} {b : Behaviour}

theorem Cycle.conclude_stock (w : Wiring) (r : ResourceClass) (s : Site L) (st : ReviewState)
    (t : Tally) :
    Site.SameStock { s with queue := s.queue.recordPending st.planned }
      (Cycle.conclude w r s st t).1 :=
  Site.emit_same w _ _

variable [Limiter L]

/-- Capacity of no units is created and forgotten. Any other capacity is registered too, and the
review plans with it. -/
theorem Engine.accept_stock {q : Request} {planned : List PlannedCapacity} {s s' : Site L}
    {st st' : ReviewState} (h : Engine.accept w q (.ok planned) s st = (s', st')) :
    s'.created = s.created ++ planned ∧
      (PlannedCapacity.totalUnits planned = 0 ∧ s'.limiter = s.limiter ∧ st' = st ∨
        PlannedCapacity.totalUnits planned ≠ 0 ∧
          s'.limiter = planned.foldl Engine.register s.limiter ∧
          st' = (st.recordPlanned q.resource q.provider.id planned).2) := by
  simp only [Engine.accept] at h
  by_cases none : PlannedCapacity.totalUnits planned = 0
  · rw [if_pos none] at h
    cases h
    exact ⟨rfl, .inl ⟨none, rfl, rfl⟩⟩
  · rw [if_neg none] at h
    cases h
    let next : Site L := { s with
      created := s.created ++ planned
      limiter := planned.foldl Engine.register s.limiter }
    let links := (st.recordPlanned q.resource q.provider.id planned).1
    have reported := Site.emit_same w (.provisionRequested st.review q.provider.id
      q.resource.toLabel (PlannedCapacity.totalUnits planned) (planned.map (·.id)))
      (links.foldl (Site.track w) next)
    obtain ⟨queue, links', tracked⟩ := Site.tracks_frame w links next
    have created := congrArg Site.created tracked
    have limiter := congrArg Site.limiter tracked
    exact ⟨reported.created.trans created, .inr ⟨none, reported.limiter.trans limiter, rfl⟩⟩

/-- An answer leaves the capacity of the queue alone; what it brings is in flight when the review
ends. -/
theorem Engine.accept_queue (hw : w.tracker.KeepsCapacity) (q : Request) (a : Answer) (s : Site L)
    (st : ReviewState) : s.queue.SameCapacity (Engine.accept w q a s st).1.queue := by
  simp only [Engine.accept]
  cases a with
  | error e => exact (Site.emit_same w _ s).queue
  | ok planned =>
    simp only
    by_cases none : PlannedCapacity.totalUnits planned = 0
    · rw [if_pos none]
      exact .refl _
    · rw [if_neg none]
      let next : Site L := { s with
        created := s.created ++ planned
        limiter := planned.foldl Engine.register s.limiter }
      have tracked :=
        Site.tracks_queue hw (st.recordPlanned q.resource q.provider.id planned).1 next
      exact tracked.trans (Site.emit_same w _ _).queue

theorem Engine.accept_error (q : Request) (e : ProviderError) (s : Site L) (st : ReviewState) :
    s.SameStock (Engine.accept w q (.error e) s st).1 ∧
      (Engine.accept w q (.error e) s st).2 = st :=
  ⟨Site.emit_same w _ s, rfl⟩

end Reviews

/-! ## What reviews plan -/

namespace ReviewState

/-- The demand and the capacity that a review counts for a class. -/
def counts? (st : ReviewState) (r : ResourceClass) : Option CapacityCounts :=
  (st.classes.find? r).map (·.counts)

theorem unsatisfied_eq (st : ReviewState) (r : ResourceClass) :
    st.unsatisfied r = ((st.counts? r).map (·.shortfall)).getD 0 := by
  simp only [unsatisfied, counts?]
  cases st.classes.find? r <;> rfl

/-- A request that has a reason is for a class that the review counts. -/
theorem Warrants.counts?_ne_none {st : ReviewState} {q : Request} (h : st.Warrants q) :
    st.counts? q.resource ≠ none := by
  intro none
  have needed := h.needed
  rw [unsatisfied_eq, none] at needed
  exact h.positive (UInt32.le_zero_iff.1 needed)

/-- A review that counts one class only has reason to ask for that class only. -/
theorem Warrants.resource_eq {st : ReviewState} {q : Request} (h : st.Warrants q)
    {r : ResourceClass} (alone : ∀ r', r' ≠ r → st.counts? r' = none) : q.resource = r := by
  by_contra other
  exact h.counts?_ne_none (alone _ other)

/-- Linking changes nothing about the items. -/
theorem items_linkUnits (units : List (PlannedId × Nat)) (items : List PendingItem) :
    (linkUnits units items).1.map (·.item) = items.map (·.item) := by
  induction items generalizing units with
  | nil => rfl
  | cons x items ih =>
    simp only [linkUnits]
    split
    · simp [ih]
    · cases next : nextUnit? units with
      | none => rfl
      | some unit => simp [ih]

variable (st : ReviewState) (r : ResourceClass) (p : ProviderId) (planned : List PlannedCapacity)

theorem planned_recordPlanned :
    (st.recordPlanned r p planned).2.planned = st.planned ++ planned := by
  simp only [recordPlanned]
  split <;> rfl

theorem review_recordPlanned : (st.recordPlanned r p planned).2.review = st.review := by
  simp only [recordPlanned]
  split <;> rfl

theorem plannedFor_recordPlanned (p' : ProviderId) :
    (st.recordPlanned r p planned).2.plannedFor p' =
      st.plannedFor p' + if p' = p then PlannedCapacity.totalUnits planned else 0 := by
  have inserted : (st.recordPlanned r p planned).2.plannedByProvider =
      st.plannedByProvider.insert p (st.plannedFor p + PlannedCapacity.totalUnits planned) := by
    simp only [recordPlanned]
    split <;> rfl
  simp only [plannedFor, inserted, Table.findD, Table.find?_insert]
  by_cases e : p' = p
  · subst e
    simp
  · simp [e]

theorem budget_recordPlanned : (st.recordPlanned r p planned).2.budget =
    (st.budget.consume ⟨p, r⟩ (PlannedCapacity.totalUnits planned)).2 := by
  simp only [recordPlanned]
  split <;> rfl

/-- Only the class that was planned for is counted differently. -/
theorem counts?_recordPlanned (q : ResourceClass) :
    (st.recordPlanned r p planned).2.counts? q =
      if q = r then (st.counts? r).map (·.recordPlanned (PlannedCapacity.totalUnits planned))
      else st.counts? q := by
  simp only [recordPlanned, counts?]
  split
  · rename_i none
    by_cases e : q = r
    · subst e
      rw [if_pos rfl, none]
      rfl
    · rw [if_neg e]
  · rename_i d known
    rw [Table.find?_insert]
    by_cases e : q = r
    · rw [if_pos e, if_pos e, known]
      rfl
    · rw [if_neg e, if_neg e]

end ReviewState

/-- A review begins with the counts of its class only. -/
theorem Cycle.counts?_captured (r q : ResourceClass) (s : Site L) :
    (Cycle.captured r s).counts? q = if q = r then
      some (ClassDemand.ofSnapshot (s.queue.snapshot r)).counts else none := by
  simp only [ReviewState.counts?]
  show ((Table.insert ∅ r _).find? q).map _ = _
  rw [Table.find?_insert]
  split <;> rfl

end Muster
