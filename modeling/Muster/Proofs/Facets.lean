import Muster.Proofs.Ceilings
import Muster.Proofs.Independence
import Muster.Proofs.Loads
import Muster.Proofs.Lockstep

/-!
# What a class sees of a site

The reviews of different classes share the queue, the limiter and the providers. What the review of
one class sees of them is its facet: what providers have been asked about the class, what is
registered against its slots, which of its items got a new link, and how many of its units are in
flight. Everything that a review of the class does next is determined by the facet, and nothing that
the review of another class does changes it.

Identifiers are not part of a facet. New capacity gets identifiers that were never used before, in
an order that depends on all classes; that they are new is all that matters about them.

**Main statements.** `Site.Own.accept`: an answer leaves other classes alone.
`Site.Working.facet_accept`: what it does to the facet of its own class.
-/

namespace Muster

/-! ## Providers that answer class by class -/

/-- What a provider hears in a question. How many units are planned with it is left out. -/
inductive Heard where
  | headroom
  | provision (units : Count)
deriving DecidableEq

def Question.heard : Question → Heard
  | headroom .. => .headroom
  | provision units => .provision units

/-- What a provider has been asked about a class, oldest first. -/
def heard (calls : List Call) (p : ProviderId) (r : ResourceClass) : List Heard :=
  (calls.filter fun call => call.provider == p && call.resource == r).map (·.question.heard)

theorem heard_concat (calls : List Call) (call : Call) (p : ProviderId) (r : ResourceClass) :
    heard (calls ++ [call]) p r = heard calls p r ++
      if call.provider = p ∧ call.resource = r then [call.question.heard] else [] := by
  simp only [heard, List.filter_append, List.map_append]
  by_cases here : call.provider = p ∧ call.resource = r
  · simp [here]
  · simp [here]

/-- How providers treat each class: whether they have headroom, whether they answer a request at
once, and the sizes of the capacity that they create, or `none` if they refuse. All this depends on
nothing but what they have heard about the class. -/
structure Manner where
  headroom : Provider → ResourceClass → List Heard → Except ProviderError Bool
  prompt : Request → List Heard → Bool
  /-- The request itself is the last thing heard. -/
  sizes : Request → List Heard → Option (List Count)

/-- An answer in this manner, with capacity of the provider and the class that were asked. -/
def Manner.Allows (m : Manner) (told : List Heard) (q : Request) : Answer → Prop
  | .error _ => m.sizes q told = none
  | .ok planned => m.sizes q told = some (planned.map (·.units)) ∧
      ∀ p ∈ planned, p.provider = q.provider.id ∧ p.resource = q.resource

/-- Providers behave in this manner. -/
structure Behaviour.Follows (b : Behaviour) (m : Manner) : Prop where
  headroom : ∀ calls p r planned,
    b.headroom calls p r planned = m.headroom p r (heard calls p.id r)
  prompt : ∀ calls created q,
    (b.respond calls created q).isSome = m.prompt q (heard calls q.provider.id q.resource)
  allowed : ∀ calls created q a, b.respond calls created q = some a →
    m.Allows (heard calls q.provider.id q.resource ++ [.provision q.units]) q a

/-! ## New capacity -/

namespace PlannedCapacity

variable {t t' : Table PlannedId PlannedCapacity} {planned : List PlannedCapacity}

theorem sumOf_congr {test : PlannedCapacity → Bool}
    (h : ∀ id p, test p = true → (t.find? id = some p ↔ t'.find? id = some p)) :
    (t.sumOf fun _ => unitsIf test) = t'.sumOf fun _ => unitsIf test := by
  refine (Table.exactSum_filter_values t test (·.units)).symm.trans ?_
  rw [Table.filter_values_congr h]
  exact Table.exactSum_filter_values t' test (·.units)

/-- Beside a capacity with another identifier, new capacity is still new. -/
theorem new_insert {x : PlannedCapacity} (other : x.id ∉ planned.map (·.id))
    (new : ∀ p ∈ planned, t.find? p.id = none) :
    ∀ p ∈ planned, (t.insert x.id x).find? p.id = none := by
  intro p mem
  have ne : p.id ≠ x.id := fun same => other (List.mem_map.2 ⟨p, mem, same⟩)
  rw [Table.find?_insert, if_neg ne]
  exact new p mem

/-- Capacities with new identifiers are found beside the old ones. -/
theorem find?_store (once : (planned.map (·.id)).Nodup)
    (new : ∀ p ∈ planned, t.find? p.id = none) {id : PlannedId} {p : PlannedCapacity} :
    (store planned t).find? id = some p ↔ t.find? id = some p ∨ p ∈ planned ∧ p.id = id := by
  induction planned generalizing t with
  | nil => simp [store]
  | cons x planned ih =>
    obtain ⟨first, once⟩ := List.nodup_cons.1 once
    have rest := new_insert first fun p mem => new p (List.mem_cons_of_mem _ mem)
    have inserted : (t.insert x.id x).find? id = some p ↔
        t.find? id = some p ∨ p = x ∧ p.id = id := by
      rw [Table.find?_insert]
      by_cases e : id = x.id
      · subst e
        rw [if_pos rfl, new x List.mem_cons_self]
        constructor
        · rintro same
          cases same
          exact .inr ⟨rfl, rfl⟩
        · rintro (impossible | ⟨rfl, -⟩)
          · cases impossible
          · rfl
      · rw [if_neg e]
        refine ⟨.inl, ?_⟩
        rintro (old | ⟨rfl, same⟩)
        · exact old
        · exact absurd same.symm e
    rw [List.mem_cons, show (store (x :: planned) t) = store planned (t.insert x.id x) from rfl,
      ih once rest, inserted, or_and_right, or_assoc]

theorem sumOf_store (once : (planned.map (·.id)).Nodup)
    (new : ∀ p ∈ planned, t.find? p.id = none) (f : PlannedCapacity → Nat) :
    ((store planned t).sumOf fun _ => f) = (t.sumOf fun _ => f) + (planned.map f).sum := by
  induction planned generalizing t with
  | nil => rfl
  | cons x planned ih =>
    obtain ⟨first, once⟩ := List.nodup_cons.1 once
    have rest := new_insert first fun p mem => new p (List.mem_cons_of_mem _ mem)
    show ((store planned (t.insert x.id x)).sumOf fun _ => f) = _
    rw [ih once rest, Table.sumOf_insert_new (new x List.mem_cons_self), List.map_cons,
      List.sum_cons]
    omega

end PlannedCapacity

/-- Capacity that is registered goes to the usage of a static limiter, and nowhere else. -/
theorem HostLimiter.registers (planned : List PlannedCapacity) (l : HostLimiter) :
    planned.foldl Engine.register l = if l.mode = .enforcing then
      { l with ceilings.usage := PlannedCapacity.store planned l.ceilings.usage } else l := by
  induction planned generalizing l with
  | nil => exact (ite_self l).symm
  | cons p planned ih =>
    rw [List.foldl_cons, ih]
    obtain ⟨ceilings, mode⟩ := l
    cases mode <;> rfl

theorem HostLimiter.mode_registers (planned : List PlannedCapacity) (l : HostLimiter) :
    (planned.foldl Engine.register l).mode = l.mode := by
  rw [registers]
  split <;> rfl

theorem HostLimiter.ceilings_registers (planned : List PlannedCapacity) (l : HostLimiter) :
    (planned.foldl Engine.register l).ceilings.ceilings = l.ceilings.ceilings := by
  rw [registers]
  split <;> rfl

/-! ## Links -/

namespace ReviewState

/-- An item as a facet shows it: whether it has a link, and not which. -/
def marked (items : List PendingItem) : List (WorkItemId × Bool) :=
  items.map fun p => (p.item.id, p.planned.isSome)

theorem nextUnit?_sizes {units units' : List (PlannedId × Nat)}
    (sizes : units.map Prod.snd = units'.map Prod.snd) :
    (nextUnit? units).map (·.2.map Prod.snd) = (nextUnit? units').map (·.2.map Prod.snd) := by
  induction units generalizing units' with
  | nil =>
    cases units' with
    | nil => rfl
    | cons x units' => cases sizes
  | cons x units ih =>
    cases units' with
    | nil => cases sizes
    | cons x' units' =>
      obtain ⟨id, n⟩ := x
      obtain ⟨id', n'⟩ := x'
      obtain ⟨same, rest⟩ := List.cons.inj sizes
      obtain rfl : n = n' := same
      cases n with
      | zero =>
        have same := ih rest
        exact same
      | succ n => exact congrArg (fun sizes => some (n :: sizes)) rest

/-- Which items get links depends on the sizes of the capacity, and not on its identifiers. -/
theorem linkUnits_marked {units units' : List (PlannedId × Nat)} {items items' : List PendingItem}
    (sizes : units.map Prod.snd = units'.map Prod.snd) (same : marked items = marked items') :
    marked (linkUnits units items).1 = marked (linkUnits units' items').1 ∧
      (linkUnits units items).2.map (·.item) = (linkUnits units' items').2.map (·.item) := by
  induction items generalizing units units' items' with
  | nil =>
    cases items' with
    | nil => exact ⟨rfl, rfl⟩
    | cons x items' => cases same
  | cons x items ih =>
    cases items' with
    | nil => cases same
    | cons x' items' =>
      obtain ⟨first, rest⟩ := List.cons.inj same
      obtain ⟨item, linked⟩ := Prod.mk.inj first
      have next := nextUnit?_sizes sizes
      simp only [linkUnits, linked]
      by_cases had : x'.planned.isSome = true
      · rw [if_pos had, if_pos had]
        obtain ⟨marks, links⟩ := ih sizes rest
        exact ⟨congrArg₂ List.cons first marks, links⟩
      · rw [if_neg had, if_neg had]
        revert next
        cases nextUnit? units with
        | none =>
          cases nextUnit? units' with
          | none => exact fun _ => ⟨same, rfl⟩
          | some unit' =>
            intro impossible
            cases impossible
        | some unit =>
          cases nextUnit? units' with
          | none =>
            intro impossible
            cases impossible
          | some unit' =>
            intro next
            obtain ⟨marks, links⟩ := ih (Option.some.inj next) rest
            exact ⟨congrArg₂ List.cons (congrArg (·, true) item) marks,
              congrArg₂ List.cons item links⟩

end ReviewState

namespace Queue

/-- Items of the class that have other links than at the start were not linked to capacity in flight
then, and are linked to new capacity. -/
def Relinked (classOf : WorkItemId → ResourceClass) (r : ResourceClass) (new : List PlannedId)
    (start q : Queue) : Prop :=
  ∀ id, classOf id = r → q.linkOf id = start.linkOf id ∨
    start.live (start.linkOf id) = none ∧ ∃ p ∈ new, q.linkOf id = some p

section Relinked

variable {classOf : WorkItemId → ResourceClass} {r : ResourceClass} {start q : Queue}
  {new : List PlannedId}

/-- A link to new capacity is kept unless its item was linked to capacity in flight at the start. -/
theorem Relinked.linkOf_track (h : start.Relinked classOf r new q) {link : Link}
    (ofClass : classOf link.item = r) (isNew : link.planned ∈ new)
    (landed : ∀ p ∈ new, q.inFlight.find? p = none)
    (live : ∀ id, q.live (start.linkOf id) = start.live (start.linkOf id)) :
    (q.orStay (q.track link)).linkOf link.item =
      if q.items.contains link.item = true ∧ start.live (start.linkOf link.item) = none then
        some link.planned else q.linkOf link.item := by
  have dead : ∀ p ∈ new, q.live (some p) = none := by
    intro p mem
    simp only [Queue.live, Option.filter, Table.contains, landed p mem]
    rfl
  cases found : q.items.find? link.item with
  | none =>
    have absent : q.items.contains link.item = false := by simp only [Table.contains, found]; rfl
    simp only [absent, Bool.false_eq_true, false_and, if_false, Queue.track, found]
    rfl
  | some e =>
    have here : q.items.contains link.item = true := by simp only [Table.contains, found]; rfl
    have put : ({ q with items := q.items.insert link.item { e with link := some link.planned } }
        : Queue).linkOf link.item = some link.planned := by rw [linkOf_insert rfl, if_pos rfl]
    simp only [here, true_and, Queue.track, found]
    rcases h link.item ofClass with old | ⟨free, p, mem, linked⟩
    · rw [linkOf_of_find? found] at old
      rw [old, live]
      cases held : start.live (start.linkOf link.item) with
      | none =>
        rw [if_pos rfl]
        exact put
      | some existing =>
        rw [if_neg (Option.some_ne_none existing)]
        have other : existing ≠ link.planned := by
          rintro rfl
          have flies : q.live (start.linkOf link.item) = some link.planned := (live _).trans held
          obtain ⟨-, here⟩ := Option.filter_eq_some_iff.1 flies
          rw [Table.contains, landed _ isNew] at here
          cases here
        show (q.orStay (if existing ≠ link.planned then _ else _)).linkOf _ = _
        rw [if_pos other]
        rfl
    · rw [linkOf_of_find? found] at linked
      rw [linked, dead p mem, if_pos free]
      exact put

theorem find?_track {q : Queue} {link : Link} {id : WorkItemId} (other : id ≠ link.item) :
    (q.orStay (q.track link)).items.find? id = q.items.find? id := by
  cases tracked : q.track link with
  | error e => rfl
  | ok q' =>
    obtain ⟨e, -, rfl⟩ := track_ok tracked
    show (q.items.insert _ _).find? id = _
    rw [Table.find?_insert, if_neg other]

/-- Links of some items of the class went to new capacity. -/
structure Relinks (classOf : WorkItemId → ResourceClass) (r : ResourceClass) (new : List PlannedId)
    (start : Queue) (items : List WorkItemId) (q q' : Queue) : Prop where
  bare : q'.bare = q.bare
  relinked : start.Relinked classOf r new q'
  others : ∀ id, classOf id ≠ r → q'.items.find? id = q.items.find? id
  moved : ∀ id, classOf id = r → (q'.linkOf id ≠ start.linkOf id ↔ q.linkOf id ≠ start.linkOf id ∨
    id ∈ items ∧ q.items.contains id = true ∧ start.live (start.linkOf id) = none)

theorem contains_of_bare {q q' : Queue} (h : q'.bare.items = q.bare.items) (id : WorkItemId) :
    q'.items.contains id = q.items.contains id := by
  have same := congrArg (fun items => (items.find? id).isSome) h
  simp only [find?_bare, Option.isSome_map] at same
  exact same

theorem Relinks.refl (h : start.Relinked classOf r new q) :
    start.Relinks classOf r new [] q q :=
  ⟨rfl, h, fun _ _ => rfl, fun id _ => by simp⟩

theorem Relinks.trans {items items' : List WorkItemId} {q' q'' : Queue}
    (h : Relinks classOf r new start items q q') (h' : Relinks classOf r new start items' q' q'') :
    Relinks classOf r new start (items ++ items') q q'' := by
  refine ⟨h'.bare.trans h.bare, h'.relinked, ?_, ?_⟩
  · exact fun id other => (h'.others id other).trans (h.others id other)
  · intro id here
    rw [h'.moved id here, h.moved id here, contains_of_bare (congrArg Queue.items h.bare),
      List.mem_append]
    tauto

/-- New links in one step. -/
theorem Relinked.track_relinks (h : start.Relinked classOf r new q) {link : Link}
    (ofClass : classOf link.item = r) (isNew : link.planned ∈ new)
    (landed : ∀ p ∈ new, q.inFlight.find? p = none)
    (strange : ∀ p ∈ new, ∀ id, start.linkOf id ≠ some p)
    (live : ∀ id, q.live (start.linkOf id) = start.live (start.linkOf id)) :
    start.Relinks classOf r new [link.item] q (q.orStay (q.track link)) := by
  have bare : (q.orStay (q.track link)).bare = q.bare := by
    cases tracked : q.track link with
    | error e => rfl
    | ok q' => exact Tracker.changesOnlyLinks_queue [] q link q' tracked
  have link' := h.linkOf_track ofClass isNew landed live
  have rest : ∀ id, id ≠ link.item → (q.orStay (q.track link)).linkOf id = q.linkOf id :=
    fun id other => congrArg (·.bind (·.link)) (find?_track other)
  refine ⟨bare, ?_, ?_, ?_⟩
  · intro id here
    by_cases e : id = link.item
    · subst e
      rw [link']
      split
      · rename_i free
        exact .inr ⟨free.2, _, isNew, rfl⟩
      · exact h _ here
    · rw [rest id e]
      exact h id here
  · intro id other
    exact find?_track fun e => other (e ▸ ofClass)
  · intro id here
    by_cases e : id = link.item
    · subst e
      rw [link', List.mem_singleton]
      split
      · rename_i free
        exact iff_of_true (fun same => strange _ isNew _ same.symm) (.inr ⟨rfl, free⟩)
      · rename_i bound
        exact (or_iff_left fun free => bound free.2).symm
    · rw [rest id e, List.mem_singleton]
      exact (or_iff_left fun free => e free.1).symm

/-- New links, one after the other. -/
theorem Relinked.tracks (h : start.Relinked classOf r new q) (links : List Link)
    (ofClass : ∀ link ∈ links, classOf link.item = r) (isNew : ∀ link ∈ links, link.planned ∈ new)
    (landed : ∀ p ∈ new, q.inFlight.find? p = none)
    (strange : ∀ p ∈ new, ∀ id, start.linkOf id ≠ some p)
    (live : ∀ id, q.live (start.linkOf id) = start.live (start.linkOf id)) :
    start.Relinks classOf r new (links.map (·.item)) q (q.run (links.map .track)) := by
  induction links generalizing q with
  | nil => exact .refl h
  | cons link links ih =>
    have first := h.track_relinks (ofClass link List.mem_cons_self) (isNew link List.mem_cons_self)
      landed strange live
    have flights := inFlight_of_bare first.bare
    refine first.trans (ih first.relinked (fun l mem => ofClass l (List.mem_cons_of_mem _ mem))
      (fun l mem => isNew l (List.mem_cons_of_mem _ mem)) ?_ ?_)
    · rw [flights]
      exact landed
    · intro id
      rw [← live id]
      simp only [Queue.live, flights]

theorem Relinked.mono (h : start.Relinked classOf r new q) {more : List PlannedId}
    (sub : new ⊆ more) : start.Relinked classOf r more q := by
  intro id here
  refine (h id here).imp_right ?_
  rintro ⟨free, p, mem, linked⟩
  exact ⟨free, p, sub mem, linked⟩

end Relinked

end Queue

/-! ## Sites -/

/-- What the review of a class sees of a site. -/
@[ext]
structure Facet where
  heard : ProviderId → List Heard
  /-- Units that are registered against the slot of a provider. -/
  held : ProviderId → Nat
  /-- Items whose links are not those of the start. -/
  moved : WorkItemId → Prop
  /-- Units in flight. -/
  inFlight : Nat

namespace Site

/-- The capacity that was created since the start. -/
def since {L : Type} (start s : Site L) : List PlannedCapacity :=
  s.created.drop start.created.length

/-- The capacity that was created since the start has identifiers that were never used before. -/
structure AllNew (start : Site HostLimiter) (created : List PlannedCapacity) : Prop where
  once : ((created.drop start.created.length).map (·.id)).Nodup
  inFlight : ∀ p ∈ created.drop start.created.length, start.queue.inFlight.find? p.id = none
  usage : ∀ p ∈ created.drop start.created.length,
    start.limiter.ceilings.usage.find? p.id = none
  links : ∀ p ∈ created.drop start.created.length, ∀ id, start.queue.linkOf id ≠ some p.id

/-- What reviews may have done to a site: they have created capacity, and what is registered or in
flight now and was not at the start is among it. -/
structure Grown (start s : Site HostLimiter) : Prop where
  created : start.created <+: s.created
  mode : s.limiter.mode = start.limiter.mode
  ceilings : s.limiter.ceilings.ceilings = start.limiter.ceilings.ceilings
  items : s.queue.bare.items = start.queue.bare.items
  available : s.queue.available = start.queue.available
  usage : ∀ id p, s.limiter.ceilings.usage.find? id = some p →
    start.limiter.ceilings.usage.find? id = some p ∨ p ∈ start.since s ∧ p.id = id
  inFlight : ∀ id p, s.queue.inFlight.find? id = some p →
    start.queue.inFlight.find? id = some p ∨ p ∈ start.since s ∧ p.id = id
  kept : ∀ id p, start.queue.inFlight.find? id = some p → s.queue.inFlight.find? id = some p

section Classes

variable (classOf : WorkItemId → ResourceClass)

/-- The site has changed in nothing that concerns the class `r`. -/
structure SameFor (r : ResourceClass) (s s' : Site HostLimiter) : Prop where
  heard : ∀ p, heard s'.calls p r = heard s.calls p r
  usage : ∀ id p, p.resource = r →
    (s'.limiter.ceilings.usage.find? id = some p ↔ s.limiter.ceilings.usage.find? id = some p)
  inFlight : ∀ id p, p.resource = r →
    (s'.queue.inFlight.find? id = some p ↔ s.queue.inFlight.find? id = some p)
  items : ∀ id, classOf id = r → s'.queue.items.find? id = s.queue.items.find? id

/-- What the review of a class sees of a site, compared with the start. -/
def facet (start : Site HostLimiter) (r : ResourceClass) (s : Site HostLimiter) : Facet where
  heard p := Muster.heard s.calls p r
  held p := s.limiter.ceilings.held ⟨p, r⟩
  moved id := classOf id = r ∧ s.queue.linkOf id ≠ start.queue.linkOf id
  inFlight := s.queue.inFlight.sumOf fun _ => PlannedCapacity.unitsIf (·.resource == r)

/-- The review of the class `r` is under way. New links of its items are to capacity that it has
planned, which is not in flight yet. -/
structure Working (start : Site HostLimiter) (r : ResourceClass) (s : Site HostLimiter)
    (st : ReviewState) : Prop where
  only : ∃ d, st.Only r d
  classed : st.Classed classOf
  among : st.planned.Sublist (start.since s)
  ofClass : ∀ p ∈ st.planned, p.resource = r
  links : start.queue.Relinked classOf r (st.planned.map (·.id)) s.queue
  inFlight : ∀ id p, p.resource = r →
    (s.queue.inFlight.find? id = some p ↔ start.queue.inFlight.find? id = some p)

/-- The review of the class `r` is over. New links of its items are to capacity in flight. -/
def Settled (start : Site HostLimiter) (r : ResourceClass) (s : Site HostLimiter) : Prop :=
  ∀ id, classOf id = r → s.queue.linkOf id = start.queue.linkOf id ∨
    start.queue.live (start.queue.linkOf id) = none ∧ ∃ p, p.resource = r ∧
      s.queue.linkOf id = some p.id ∧ s.queue.inFlight.find? p.id = some p

variable {classOf} {start s s' s'' : Site HostLimiter} {r : ResourceClass} {st : ReviewState}

theorem AllNew.early {l m : List PlannedCapacity} (part : l <+: m) (h : start.AllNew m) :
    start.AllNew l := by
  obtain ⟨k, rfl⟩ := part
  obtain ⟨once, inFlight, usage, links⟩ := h
  rw [List.drop_append] at once inFlight usage links
  rw [List.map_append, List.nodup_append] at once
  exact ⟨once.1, fun p mem => inFlight p (List.mem_append_left _ mem),
    fun p mem => usage p (List.mem_append_left _ mem),
    fun p mem => links p (List.mem_append_left _ mem)⟩

theorem SameFor.refl (r : ResourceClass) (s : Site HostLimiter) : SameFor classOf r s s :=
  ⟨fun _ => rfl, fun _ _ _ => Iff.rfl, fun _ _ _ => Iff.rfl, fun _ _ => rfl⟩

theorem SameFor.trans (h : SameFor classOf r s s') (h' : SameFor classOf r s' s'') :
    SameFor classOf r s s'' where
  heard p := (h'.heard p).trans (h.heard p)
  usage id p hp := (h'.usage id p hp).trans (h.usage id p hp)
  inFlight id p hp := (h'.inFlight id p hp).trans (h.inFlight id p hp)
  items id hid := (h'.items id hid).trans (h.items id hid)

theorem SameFor.linkOf (h : SameFor classOf r s s') {id : WorkItemId} (hid : classOf id = r) :
    s'.queue.linkOf id = s.queue.linkOf id :=
  congrArg (·.bind (·.link)) (h.items id hid)

/-- What changes in nothing that concerns a class does not change its facet. -/
theorem SameFor.facet (h : SameFor classOf r s s') :
    facet classOf start r s' = facet classOf start r s := by
  refine Facet.ext (funext h.heard) (funext fun p => ?_) (funext fun id => propext ?_) ?_
  · show s'.limiter.ceilings.held ⟨p, r⟩ = s.limiter.ceilings.held ⟨p, r⟩
    rw [StaticLimiter.held_eq, StaticLimiter.held_eq]
    refine PlannedCapacity.sumOf_congr fun id x test => h.usage id x ?_
    exact beq_iff_eq.1 (Bool.and_eq_true_iff.1 test).2
  · exact and_congr_right fun hid => by rw [h.linkOf hid]
  · exact PlannedCapacity.sumOf_congr fun id x test => h.inFlight id x (beq_iff_eq.1 test)

theorem SameFor.settled (h : SameFor classOf r s s') (settled : start.Settled classOf r s) :
    start.Settled classOf r s' := by
  intro id hid
  rw [h.linkOf hid]
  refine (settled id hid).imp_right ?_
  rintro ⟨free, p, hp, linked, found⟩
  exact ⟨free, p, hp, linked, (h.inFlight p.id p hp).2 found⟩

theorem SameFor.working (h : SameFor classOf r s s') (created : s.created <+: s'.created)
    (working : start.Working classOf r s st) : start.Working classOf r s' st where
  only := working.only
  classed := working.classed
  among := by
    obtain ⟨k, e⟩ := created
    refine working.among.trans ?_
    rw [since, since, ← e, List.drop_append]
    exact List.sublist_append_left _ _
  ofClass := working.ofClass
  links id hid := by
    rw [h.linkOf hid]
    exact working.links id hid
  inFlight id p hp := (h.inFlight id p hp).trans (working.inFlight id p hp)

theorem Grown.refl (s : Site HostLimiter) : s.Grown s where
  created := List.prefix_refl _
  mode := rfl
  ceilings := rfl
  items := rfl
  available := rfl
  usage _ _ := .inl
  inFlight _ _ := .inl
  kept _ _ := id

/-- A link of the start counts as long as it did. -/
theorem Grown.live (h : start.Grown s) (new : start.AllNew s.created) (id : WorkItemId) :
    s.queue.live (start.queue.linkOf id) = start.queue.live (start.queue.linkOf id) := by
  cases linked : start.queue.linkOf id with
  | none => rfl
  | some p =>
    have flies : s.queue.inFlight.contains p = start.queue.inFlight.contains p := by
      simp only [Table.contains]
      cases before : start.queue.inFlight.find? p with
      | some x => rw [h.kept p x before]
      | none =>
        cases found : s.queue.inFlight.find? p with
        | none => rfl
        | some x =>
          rcases h.inFlight p x found with old | ⟨mem, rfl⟩
          · cases before.symm.trans old
          · exact absurd linked (new.links x mem id)
    simp only [Queue.live, Option.filter, flies]

/-- What a review has planned is not in flight. -/
theorem Working.absent (h : start.Working classOf r s st) (grown : start.Grown s)
    (new : start.AllNew s.created) : ∀ p ∈ st.planned, s.queue.inFlight.find? p.id = none := by
  intro p mem
  have since := h.among.mem mem
  cases found : s.queue.inFlight.find? p.id with
  | none => rfl
  | some x =>
    have old : start.queue.inFlight.find? p.id = some x := by
      rcases grown.inFlight p.id x found with old | ⟨here, same⟩
      · exact old
      · obtain rfl := List.inj_on_of_nodup_map new.once here since same
        exact (h.inFlight x.id x (h.ofClass x mem)).1 found
    cases (new.inFlight p since).symm.trans old

theorem Grown.since_append (h : start.Grown s) (planned : List PlannedCapacity) :
    (s.created ++ planned).drop start.created.length = start.since s ++ planned :=
  List.drop_append_of_le_length h.created.length_le

theorem Grown.once (h : start.Grown s) {planned : List PlannedCapacity}
    (new : start.AllNew (s.created ++ planned)) : (planned.map (·.id)).Nodup := by
  have all := new.once
  rw [h.since_append, List.map_append] at all
  exact (List.nodup_append.1 all).2.1

/-- Capacity that is new is neither registered nor in flight. -/
theorem Grown.absent (h : start.Grown s) {planned : List PlannedCapacity}
    (new : start.AllNew (s.created ++ planned)) : ∀ p ∈ planned,
      s.limiter.ceilings.usage.find? p.id = none ∧ s.queue.inFlight.find? p.id = none := by
  obtain ⟨once, inFlight, usage, -⟩ := new
  rw [h.since_append] at once inFlight usage
  rw [List.map_append, List.nodup_append] at once
  intro p mem
  have unseen : ∀ x ∈ start.since s, x.id ≠ p.id := fun x here =>
    once.2.2 x.id (List.mem_map_of_mem here) p.id (List.mem_map_of_mem mem)
  constructor
  · cases found : s.limiter.ceilings.usage.find? p.id with
    | none => rfl
    | some x =>
      rcases h.usage p.id x found with old | ⟨here, same⟩
      · cases (usage p (List.mem_append_right _ mem)).symm.trans old
      · exact absurd same (unseen x here)
  · cases found : s.queue.inFlight.find? p.id with
    | none => rfl
    | some x =>
      rcases h.inFlight p.id x found with old | ⟨here, same⟩
      · cases (inFlight p (List.mem_append_right _ mem)).symm.trans old
      · exact absurd same (unseen x here)

/-- Nothing but capacity that was created, events and the like has been added. -/
structure Extends (s s' : Site HostLimiter) : Prop where
  calls : s'.calls = s.calls
  limiter : s'.limiter = s.limiter
  queue : s'.queue = s.queue
  created : s.created <+: s'.created

theorem Extends.sameFor (h : s.Extends s') (r : ResourceClass) : SameFor classOf r s s' where
  heard p := by rw [h.calls]
  usage _ _ _ := by rw [h.limiter]
  inFlight _ _ _ := by rw [h.queue]
  items _ _ := by rw [h.queue]

theorem mem_since {p : PlannedCapacity} (created : s.created <+: s'.created)
    (mem : p ∈ start.since s) : p ∈ start.since s' := by
  obtain ⟨k, e⟩ := created
  rw [since, ← e, List.drop_append]
  exact List.mem_append_left _ mem

theorem Extends.grown (h : s.Extends s') (grown : start.Grown s) : start.Grown s' where
  created := grown.created.trans h.created
  mode := by rw [h.limiter, grown.mode]
  ceilings := by rw [h.limiter, grown.ceilings]
  items := by rw [h.queue, grown.items]
  available := by rw [h.queue, grown.available]
  usage id p found := by
    rw [h.limiter] at found
    exact (grown.usage id p found).imp_right (And.imp_left (mem_since h.created))
  inFlight id p found := by
    rw [h.queue] at found
    exact (grown.inFlight id p found).imp_right (And.imp_left (mem_since h.created))
  kept id p found := by
    rw [h.queue]
    exact grown.kept id p found

end Classes

end Site

/-! ## What an answer does -/

section Answers

variable {classOf : WorkItemId → ResourceClass} {w : Wiring} {start s : Site HostLimiter}
  {st : ReviewState} {q : Request} {planned : List PlannedCapacity}

/-- Capacity that was accepted is created and registered, and items are linked to it. -/
theorem Engine.accept_ok {L : Type} [Limiter L] (tracker : w.tracker = .queue)
    (units : PlannedCapacity.totalUnits planned ≠ 0) (s : Site L) (st : ReviewState) :
    ∃ links journal, Engine.accept w q (.ok planned) s st = ({ s with
      created := s.created ++ planned
      limiter := planned.foldl Engine.register s.limiter
      queue := s.queue.run ((st.recordPlanned q.resource q.provider.id planned).1.map .track)
      links, journal }, (st.recordPlanned q.resource q.provider.id planned).2) := by
  let next : Site L := { s with
    created := s.created ++ planned
    limiter := planned.foldl Engine.register s.limiter }
  let links := (st.recordPlanned q.resource q.provider.id planned).1
  obtain ⟨queue, reported, tracked⟩ := Site.tracks_frame w links next
  obtain ⟨journal, told⟩ := Site.emit_frame w (.provisionRequested st.review q.provider.id
    q.resource.toLabel (PlannedCapacity.totalUnits planned) (planned.map (·.id)))
    (links.foldl (Site.track w) next)
  have run : queue = s.queue.run (links.map .track) :=
    (congrArg Site.queue tracked).symm.trans (Site.tracks_eq_run tracker links next)
  refine ⟨reported, journal, ?_⟩
  simp only [Engine.accept, if_neg units]
  refine Prod.ext (told.trans ?_) rfl
  rw [tracked, run]

namespace Site

/-- An answer without units adds an event or some capacity that nobody uses. -/
theorem extends_accept (w : Wiring) {q : Request} {a : Answer}
    (idle : ∀ planned, a = .ok planned → PlannedCapacity.totalUnits planned = 0)
    (s : Site HostLimiter) (st : ReviewState) :
    ∃ s', Engine.accept w q a s st = (s', st) ∧ s.Extends s' := by
  cases a with
  | error e =>
    obtain ⟨journal, told⟩ := emit_frame w
      (.provisionFailed st.review q.provider.id q.resource.toLabel e.message) s
    exact ⟨_, congrArg (·, st) told, rfl, rfl, rfl, List.prefix_refl _⟩
  | ok planned =>
    simp only [Engine.accept, if_pos (idle planned rfl)]
    exact ⟨_, rfl, rfl, rfl, rfl, List.prefix_append _ _⟩

/-- New links of the class go to capacity that the review has planned. -/
theorem Working.relinks {r : ResourceClass} (h : start.Working classOf r s st)
    (grown : start.Grown s) (ofClass : ∀ p ∈ planned, p.resource = r)
    (new : start.AllNew (s.created ++ planned)) (p : ProviderId) :
    start.queue.Relinks classOf r ((st.planned ++ planned).map (·.id))
      ((st.recordPlanned r p planned).1.map (·.item)) s.queue
      (s.queue.run ((st.recordPlanned r p planned).1.map .track)) := by
  have early := new.early (List.prefix_append s.created planned)
  have serves := h.classed.serves (p := p) ofClass (grown.once new)
  have listed : ∀ x ∈ st.planned ++ planned,
      x ∈ (s.created ++ planned).drop start.created.length := by
    rw [grown.since_append]
    intro x mem
    exact (List.mem_append.1 mem).elim (fun mem => List.mem_append_left _ (h.among.mem mem))
      (List.mem_append_right _)
  refine (h.links.mono ?_).tracks _ ?_ ?_ ?_ ?_ (grown.live early)
  · rw [List.map_append]
    exact List.subset_append_left _ _
  · intro link mem
    obtain ⟨x, here, -, same⟩ := serves.known link mem
    exact same.symm.trans (ofClass x here)
  · intro link mem
    obtain ⟨x, here, same, -⟩ := serves.known link mem
    exact same ▸ List.mem_map_of_mem (List.mem_append_right _ here)
  · intro id mem
    obtain ⟨x, here, rfl⟩ := List.mem_map.1 mem
    rcases List.mem_append.1 here with old | here
    · exact h.absent grown early x old
    · exact (grown.absent new x here).2
  · intro id mem
    obtain ⟨x, here, rfl⟩ := List.mem_map.1 mem
    exact new.links x (listed x here)

/-- The capacity that was accepted is registered, unless the limiter keeps no registrations. -/
theorem Grown.find?_registers (grown : start.Grown s) (new : start.AllNew (s.created ++ planned))
    {id : PlannedId} {p : PlannedCapacity} :
    (planned.foldl Engine.register s.limiter).ceilings.usage.find? id = some p ↔
      s.limiter.ceilings.usage.find? id = some p ∨
        s.limiter.mode = .enforcing ∧ p ∈ planned ∧ p.id = id := by
  rw [HostLimiter.registers]
  by_cases keeps : s.limiter.mode = .enforcing
  · rw [if_pos keeps]
    simp only [keeps, true_and]
    exact PlannedCapacity.find?_store (grown.once new) fun p mem => (grown.absent new p mem).1
  · rw [if_neg keeps]
    simp only [keeps, false_and, or_false]

variable {ref : Site HostLimiter} {r : ResourceClass}

/-- The review of the class `r` is under way on a site that has grown since the start, and since it
was `ref` nothing has changed for other classes. -/
structure Own (classOf : WorkItemId → ResourceClass) (start ref : Site HostLimiter)
    (r : ResourceClass) (x : Site HostLimiter × ReviewState) : Prop where
  grown : start.Grown x.1
  working : start.Working classOf r x.1 x.2
  others : ∀ r', r' ≠ r → ref.SameFor classOf r' x.1

theorem Own.extends {s' : Site HostLimiter} (h : Own classOf start ref r (s, st))
    (ext : s.Extends s') : Own classOf start ref r (s', st) where
  grown := ext.grown h.grown
  working := (ext.sameFor r).working ext.created h.working
  others r' other := (h.others r' other).trans (ext.sameFor r')

section Accepted

variable (working : start.Working classOf q.resource s st) (grown : start.Grown s)
  (tracker : w.tracker = .queue) (units : PlannedCapacity.totalUnits planned ≠ 0)
  (ofClass : ∀ p ∈ planned, p.resource = q.resource) (new : start.AllNew (s.created ++ planned))

include working grown tracker units ofClass new

theorem Working.grown_accept : start.Grown (Engine.accept w q (.ok planned) s st).1 := by
  obtain ⟨links, journal, accepted⟩ := Engine.accept_ok (q := q) tracker units s st
  rw [accepted]
  have relinks := working.relinks grown ofClass new q.provider.id
  have flights := Queue.inFlight_of_bare relinks.bare
  have listed : start.since { s with created := s.created ++ planned } = start.since s ++ planned :=
    grown.since_append planned
  have available : (s.queue.run _).bare.available = s.queue.bare.available :=
    congrArg Queue.available relinks.bare
  constructor
  case created => exact grown.created.trans (List.prefix_append _ _)
  case mode => exact (HostLimiter.mode_registers planned s.limiter).trans grown.mode
  case ceilings => exact (HostLimiter.ceilings_registers planned s.limiter).trans grown.ceilings
  case items => exact (congrArg Queue.items relinks.bare).trans grown.items
  case available => exact available.trans grown.available
  case usage =>
    intro id p found
    show _ ∨ p ∈ start.since { s with created := s.created ++ planned } ∧ _
    rw [listed]
    rcases (grown.find?_registers new).1 found with old | ⟨-, mem, same⟩
    · exact (grown.usage id p old).imp_right (And.imp_left (List.mem_append_left _))
    · exact .inr ⟨List.mem_append_right _ mem, same⟩
  case inFlight =>
    intro id p found
    show _ ∨ p ∈ start.since { s with created := s.created ++ planned } ∧ _
    rw [listed]
    replace found : s.queue.inFlight.find? id = some p := flights ▸ found
    exact (grown.inFlight id p found).imp_right (And.imp_left (List.mem_append_left _))
  case kept =>
    intro id p found
    exact (congrArg (·.find? id) flights).trans (grown.kept id p found)

theorem Working.accept : start.Working classOf q.resource
    (Engine.accept w q (.ok planned) s st).1 (Engine.accept w q (.ok planned) s st).2 := by
  obtain ⟨links, journal, accepted⟩ := Engine.accept_ok (q := q) tracker units s st
  rw [accepted]
  have relinks := working.relinks grown ofClass new q.provider.id
  have flights := Queue.inFlight_of_bare relinks.bare
  have both : (st.recordPlanned q.resource q.provider.id planned).2.planned =
      st.planned ++ planned := ReviewState.planned_recordPlanned _ _ _ _
  constructor
  case only =>
    obtain ⟨d, only⟩ := working.only
    exact ⟨_, only.recordPlanned q.provider.id planned⟩
  case classed => exact working.classed.recordPlanned
  case among =>
    have listed := grown.since_append planned
    show (ReviewState.planned _).Sublist ((s.created ++ planned).drop start.created.length)
    rw [both, listed]
    exact working.among.append (List.Sublist.refl _)
  case ofClass =>
    intro p mem
    rw [both] at mem
    exact (List.mem_append.1 mem).elim (working.ofClass p) (ofClass p)
  case links =>
    rw [both]
    exact relinks.relinked
  case inFlight =>
    intro id p hp
    exact (iff_of_eq (congrArg (·.find? id = some p) flights)).trans (working.inFlight id p hp)

/-- An answer leaves other classes alone. -/
theorem Working.sameFor_accept {r' : ResourceClass} (other : r' ≠ q.resource) :
    SameFor classOf r' s (Engine.accept w q (.ok planned) s st).1 := by
  obtain ⟨links, journal, accepted⟩ := Engine.accept_ok (q := q) tracker units s st
  rw [accepted]
  have relinks := working.relinks grown ofClass new q.provider.id
  have flights := Queue.inFlight_of_bare relinks.bare
  refine ⟨fun _ => rfl, ?_, ?_, ?_⟩
  · intro id p hp
    refine (grown.find?_registers new).trans (or_iff_left ?_)
    rintro ⟨-, mem, -⟩
    exact other (hp.symm.trans (ofClass p mem))
  · intro id p _
    exact iff_of_eq (congrArg (·.find? id = some p) flights)
  · intro id hid
    exact relinks.others id fun same => other (hid.symm.trans same)

end Accepted

/-- Whatever the answer, the review goes on and other classes are left alone. -/
theorem Own.accept (h : Own classOf start ref r (s, st)) (tracker : w.tracker = .queue)
    (hr : q.resource = r) {a : Answer} (ofClass : Answer.OfClass q a)
    (new : start.AllNew (Engine.accept w q a s st).1.created) :
    Own classOf start ref r (Engine.accept w q a s st) := by
  subst hr
  cases a with
  | error e =>
    obtain ⟨s', accepted, ext⟩ := extends_accept w (q := q) (a := .error e) nofun s st
    rw [accepted]
    exact h.extends ext
  | ok planned =>
    rw [Engine.accept_created] at new
    change start.AllNew (s.created ++ planned) at new
    by_cases none : PlannedCapacity.totalUnits planned = 0
    · obtain ⟨s', accepted, ext⟩ :=
        extends_accept w (q := q) (a := .ok planned) (by rintro _ ⟨⟩; exact none) s st
      rw [accepted]
      exact h.extends ext
    · refine ⟨h.working.grown_accept h.grown tracker none ofClass new,
        h.working.accept h.grown tracker none ofClass new, fun r' other => ?_⟩
      exact (h.others r' other).trans
        (h.working.sameFor_accept h.grown tracker none ofClass new other)

/-- What an answer does to the facet of the class. -/
theorem Working.facet_accept (working : start.Working classOf q.resource s st)
    (grown : start.Grown s) (tracker : w.tracker = .queue)
    (units : PlannedCapacity.totalUnits planned ≠ 0)
    (own : ∀ p ∈ planned, p.provider = q.provider.id ∧ p.resource = q.resource)
    (new : start.AllNew (s.created ++ planned)) :
    start.facet classOf q.resource (Engine.accept w q (.ok planned) s st).1 =
      { start.facet classOf q.resource s with
        held p := (start.facet classOf q.resource s).held p +
          if start.limiter.mode = .enforcing ∧ p = q.provider.id then
            Count.exactSum (planned.map (·.units)) else 0
        moved id := (start.facet classOf q.resource s).moved id ∨ classOf id = q.resource ∧
          id ∈ (st.recordPlanned q.resource q.provider.id planned).1.map (·.item) ∧
          start.queue.items.contains id = true ∧
          start.queue.live (start.queue.linkOf id) = none } := by
  obtain ⟨links, journal, accepted⟩ := Engine.accept_ok (q := q) tracker units s st
  rw [accepted]
  have relinks := working.relinks grown (fun p mem => (own p mem).2) new q.provider.id
  have flights := Queue.inFlight_of_bare relinks.bare
  refine Facet.ext rfl (funext fun p => ?_) (funext fun id => propext ?_) ?_
  · show (planned.foldl Engine.register s.limiter).ceilings.held ⟨p, q.resource⟩ =
      s.limiter.ceilings.held ⟨p, q.resource⟩ + _
    rw [StaticLimiter.held_eq, StaticLimiter.held_eq, HostLimiter.registers, grown.mode]
    by_cases keeps : start.limiter.mode = .enforcing
    · rw [if_pos keeps]
      refine (PlannedCapacity.sumOf_store (grown.once new)
        (fun p mem => (grown.absent new p mem).1) _).trans (congrArg _ ?_)
      by_cases here : p = q.provider.id
      · rw [if_pos ⟨keeps, here⟩]
        refine PlannedCapacity.sum_unitsIf_all fun x mem => ?_
        obtain ⟨provider, resource⟩ := own x mem
        simp [StaticLimiter.against, provider, resource, here]
      · rw [if_neg fun both => here both.2]
        refine PlannedCapacity.sum_unitsIf_none fun x mem => ?_
        simp [StaticLimiter.against, (own x mem).1, Ne.symm here]
    · rw [if_neg keeps, if_neg fun both => keeps both.1]
      rfl
  · show _ ∧ _ ↔ (_ ∧ _) ∨ _ ∧ _
    rw [← and_or_left]
    refine and_congr_right fun hid => (relinks.moved id hid).trans ?_
    rw [Queue.contains_of_bare grown.items]
  · exact congrArg (Table.sumOf fun _ => PlannedCapacity.unitsIf (·.resource == q.resource)) flights

end Site

end Answers

end Muster
