import Muster.Proofs.Run
import Muster.Proofs.Visits
import Muster.Review.Scripted

/-!
# First fit

For one class, an engine goes through the providers in the order of registration and asks each one
that may be asked for what is still missing, as far as its limit allows. It stops when the class is
covered. So a class that is not covered in the end has had every provider tried, and each that might
be asked had nothing left or was asked for all it had left.

If providers deliver what they are asked for, each visit takes off what is missing what the limit
leaves, truncated at zero. What is missing before a visit is therefore what was missing at the
beginning less the limits of the visits before it, which gives the request of each provider in
closed form.

**Main statement.** `Engine.first_fit`: both, whatever providers answer and whatever others do while
the engine waits.
-/

namespace Muster

variable {L : Type}

/-- The answer is capacity for the units in question. -/
def Answer.Exact (q : Request) (a : Answer) : Prop :=
  ∃ planned, a = .ok planned ∧ Count.exactSum (planned.map (·.units)) = q.units.toNat

theorem Answer.Exact.units_eq {q : Request} {a : Answer} (h : Answer.Exact q a) :
    Answer.units a = q.units := by
  obtain ⟨planned, rfl, sum⟩ := h
  refine UInt32.toNat_inj.1 ?_
  have fits := Count.toNat_lt q.units
  rw [units, PlannedCapacity.totalUnits, Count.toNat_satSum, sum]
  omega

/-- The providers visited come first among those there are. -/
theorem Engine.providers_eq {r : ResourceClass} {ps : Registry} {visits : List (Visit L)}
    {rest : List (ResourceClass × Provider)}
    (all : ps.map (r, ·) = visits.map Visit.stop ++ rest) :
    ps = visits.map (·.provider) ++ rest.map Prod.snd := by
  have second := congrArg (List.map Prod.snd) all
  rw [List.map_append, List.map_map, List.map_map] at second
  exact (List.map_id ps).symm.trans second

variable [Limiter L]

namespace Visit

variable {e : Engine} {b : Behaviour} {w : Wiring} {gives : Answering} {v : Visit L}

theorem toNat_units (v : Visit L) : (v.units e b).toNat =
    if v.eligible e b then min (v.state.unsatisfied v.resource).toNat v.remaining.toNat else 0 := by
  rw [units]
  split
  · exact Count.toNat_min _ _
  · rfl

/-- The requests of a visit: one for its provider, unless it is for no units. -/
theorem requests_eq (e : Engine) (b : Behaviour) (v : Visit L) (p : ProviderId) :
    SimulatedProvider.requests (v.calls e b) p =
      if v.provider.id = p ∧ v.units e b ≠ 0 then [(v.resource, v.units e b)] else [] := by
  have asked : SimulatedProvider.requests (v.questions e b) p = [] := by
    rw [questions]
    split <;> rfl
  rw [calls, SimulatedProvider.requests, List.filterMap_append]
  show SimulatedProvider.requests (v.questions e b) p ++ _ = _
  rw [asked, List.nil_append]
  by_cases idle : v.units e b = 0
  · rw [if_pos idle, if_neg fun h => h.2 idle]
    rfl
  · rw [if_neg idle]
    by_cases own : v.provider.id = p <;> simp [own, idle]

/-- A provider gets one request if it may be asked and its limit leaves something, and else none. -/
theorem requests_calls (missing : v.state.unsatisfied v.resource ≠ 0) :
    SimulatedProvider.requests (v.calls e b) v.provider.id =
      if v.eligible e b = true ∧ v.remaining ≠ 0 then
        [(v.resource, min (v.state.unsatisfied v.resource) v.remaining)]
      else [] := by
  rw [requests_eq, units]
  by_cases may : v.eligible e b = true
  · have none : min (v.state.unsatisfied v.resource) v.remaining = 0 ↔ v.remaining = 0 := by
      have least := Count.toNat_min (v.state.unsatisfied v.resource) v.remaining
      have missing := mt (fun h => UInt32.toNat_inj.1 h) missing
      rw [← UInt32.toNat_inj, ← UInt32.toNat_inj, least]
      have zero : (0 : Count).toNat = 0 := rfl
      omega
    simp only [may, if_true, true_and, ne_eq, none]
  · rw [if_neg may, if_neg fun h => h.2 rfl, if_neg fun h => may h.1]

/-- The provider has delivered what it was asked for, if it has answered. -/
def Exact (e : Engine) (b : Behaviour) (v : Visit L) : Prop :=
  ∀ a, v.answer = some a → Answer.Exact (v.request e b) a

theorem Leads.delivered_eq {y : Site L × ReviewState} (h : v.Leads e b w gives y)
    (exact : v.Exact e b) : v.delivered = v.units e b := by
  cases h with
  | idle silent idle => rw [delivered, silent, idle]; rfl
  | answered said _ _ _ =>
    rw [delivered, said]
    exact (exact _ said).units_eq

/-- What the limits of the providers leave, as far as these may be asked. -/
def limits (e : Engine) (b : Behaviour) (visits : List (Visit L)) : Nat :=
  Count.exactSum ((visits.filter (·.eligible e b)).map (·.remaining))

theorem limits_concat (visits : List (Visit L)) (v : Visit L) : limits e b (visits ++ [v]) =
    limits e b visits + if v.eligible e b then v.remaining.toNat else 0 := by
  rw [limits, List.filter_append, List.map_append, Count.exactSum_append]
  cases may : v.eligible e b <;> simp [limits, may, Count.exactSum]

end Visit

namespace Engine

variable {e : Engine} {w : Wiring} {b : Behaviour} {gives : Answering} {r : ResourceClass}
  {ps : Registry} {x y : Site L × ReviewState} {visits : List (Visit L)}
  {left : List (ResourceClass × Provider)}

/-- All stops are for the class. -/
theorem Tours.resource_eq {stop : ResourceClass × Provider}
    (tour : e.Tours w b gives (ps.map (r, ·)) x visits (stop :: left) y) : stop.1 = r := by
  have listed : stop ∈ ps.map (r, ·) :=
    tour.sublist.subset (List.mem_append_right _ List.mem_cons_self)
  obtain ⟨p, -, rfl⟩ := List.mem_map.1 listed
  rfl

/-- Providers are visited in order, and none is left out before the class is covered. -/
theorem Tours.in_order (tour : e.Tours w b gives (ps.map (r, ·)) x visits left y) :
    ∃ skipped, ps.map (r, ·) = visits.map Visit.stop ++ skipped ++ left ∧
      (y.2.unsatisfied r ≠ 0 → skipped = []) := by
  induction tour with
  | start => exact ⟨[], rfl, fun _ => rfl⟩
  | @pass visits r' p left s st tour covered ih =>
    obtain ⟨skipped, all, none⟩ := ih
    have own : r' = r := tour.resource_eq
    refine ⟨skipped ++ [(r', p)], ?_, fun missing => absurd (own ▸ covered) missing⟩
    rw [all]
    simp only [List.append_assoc, List.singleton_append]
  | @visit visits v left y tour missing leads ih =>
    obtain ⟨skipped, all, none⟩ := ih
    have own : v.resource = r := tour.resource_eq
    have none : skipped = [] := none (own ▸ missing)
    refine ⟨[], ?_, fun _ => rfl⟩
    rw [all, none]
    simp only [List.map_append, List.append_assoc, List.nil_append, List.map_cons, List.map_nil,
      List.singleton_append]

/-- If providers deliver what they are asked for, the demand is less by all that their limits
leave. -/
theorem Tours.unsatisfied_eq (tour : e.Tours w b gives (ps.map (r, ·)) x visits left y)
    (exact : ∀ v ∈ visits, v.Exact e b) :
    (y.2.unsatisfied r).toNat = (x.2.unsatisfied r).toNat - Visit.limits e b visits := by
  induction tour with
  | start => rw [Visit.limits]; rfl
  | pass _ _ ih => exact ih exact
  | @visit visits v left y tour missing leads ih =>
    have before : (v.state.unsatisfied r).toNat =
        (x.2.unsatisfied r).toNat - Visit.limits e b visits :=
      ih fun v mem => exact v (List.mem_append_left _ mem)
    have own : v.resource = r := tour.resource_eq
    have after := leads.unsatisfied r
    rw [leads.delivered_eq (exact v (List.mem_append_right _ List.mem_cons_self)), if_pos own.symm,
      Visit.toNat_units, own] at after
    rw [Visit.limits_concat]
    by_cases may : v.eligible e b = true
    · rw [if_pos may] at after ⊢
      omega
    · rw [if_neg may] at after ⊢
      omega

/-- What is left at providers that were not visited, or might not be asked, is as it was. -/
theorem Tours.budget_eq {stops : List (ResourceClass × Provider)}
    (tour : e.Tours w b gives stops x visits left y) {slot : Slot}
    (fresh : ∀ v ∈ visits, v.eligible e b = true → slot ≠ v.slot) :
    y.2.budget.remaining.find? slot = x.2.budget.remaining.find? slot := by
  induction tour with
  | start => rfl
  | pass _ _ ih => exact ih fresh
  | @visit visits v left y tour missing leads ih =>
    have before := ih fun v mem => fresh v (List.mem_append_left _ mem)
    exact (leads.budget (fresh v (List.mem_append_right _ List.mem_cons_self))).trans before

end Engine

namespace Progress.Toured

variable {e : Engine} {w : Wiring} {b : Behaviour} {gives : Answering} {r : ResourceClass}
  {ps : Registry} {x : Site L × ReviewState} {visits before after : List (Visit L)} {v : Visit L}
  {g : Progress L}

theorem in_order (toured : g.Toured e w b gives (ps.map (r, ·)) x [] visits) :
    visits.map (·.provider) <+: ps := by
  cases toured with
  | settled tour =>
    obtain ⟨skipped, all, -⟩ := tour.in_order
    rw [List.append_assoc] at all
    exact ⟨_, (Engine.providers_eq all).symm⟩
  | @waiting visits v _ tour missing =>
    obtain ⟨skipped, all, none⟩ := tour.in_order
    have own : v.resource = r := tour.resource_eq
    have both : (visits ++ [v]).map Visit.stop = visits.map Visit.stop ++ [v.stop] :=
      List.map_append
    rw [none (own ▸ missing), List.append_nil, List.append_cons, ← both] at all
    exact ⟨_, (Engine.providers_eq all).symm⟩

theorem all_visited {s : Site L} {st : ReviewState}
    (toured : (Progress.settled s st).Toured e w b gives (ps.map (r, ·)) x [] visits)
    (missing : st.unsatisfied r ≠ 0) : visits.map (·.provider) = ps := by
  cases toured with
  | settled tour =>
    obtain ⟨skipped, all, none⟩ := tour.in_order
    rw [none missing, List.append_nil] at all
    have all := Engine.providers_eq all
    rw [List.map_nil, List.append_nil] at all
    exact all.symm

/-- If providers deliver what they are asked for, a provider is asked for what the limits of those
before it leave. -/
theorem units_eq (toured : g.Toured e w b gives (ps.map (r, ·)) x [] visits)
    (exact : ∀ v ∈ visits, v.Exact e b) (split : visits = before ++ v :: after)
    (may : v.eligible e b = true) : (v.units e b).toNat =
      min v.remaining.toNat ((x.2.unsatisfied r).toNat - Visit.limits e b before) := by
  obtain ⟨left, tour, -⟩ := toured.turn split
  have own : v.resource = r := tour.resource_eq
  have missing : (v.state.unsatisfied r).toNat =
      (x.2.unsatisfied r).toNat - Visit.limits e b before :=
    tour.unsatisfied_eq fun u mem => exact u (split ▸ List.mem_append_left _ mem)
  rw [Visit.toNat_units, if_pos may, own, missing, min_comm]

/-- If no two of the providers that may be asked have one identifier, no visit finds a limit counted
down by another one. -/
theorem remaining_eq (toured : g.Toured e w b gives (ps.map (r, ·)) x [] visits)
    (once : ((visits.filter (·.eligible e b)).map (·.provider.id)).Nodup) (mem : v ∈ visits)
    (may : v.eligible e b = true) : v.remaining =
      (x.2.remainingLimit v.slot (Limiter.leaves v.site.limiter v.slot)).1 := by
  obtain ⟨before, after, split⟩ := List.append_of_mem mem
  obtain ⟨left, tour, -⟩ := toured.turn split
  have fresh : ∀ u ∈ before, u.eligible e b = true → v.slot ≠ u.slot := by
    intro u mem' may' same
    rw [split, List.filter_append, List.map_append] at once
    have first := List.mem_map_of_mem (f := (·.provider.id)) (List.mem_filter.2 ⟨mem', may'⟩)
    have second : v.provider.id ∈ ((v :: after).filter (·.eligible e b)).map (·.provider.id) :=
      List.mem_map_of_mem (List.mem_filter.2 ⟨List.mem_cons_self, may⟩)
    exact (List.nodup_append.1 once).2.2 _ first _ second (congrArg Slot.provider same).symm
  rw [Visit.remaining, ReviewState.fst_remainingLimit, ReviewState.fst_remainingLimit]
  have same := tour.budget_eq fresh
  rw [same]

end Progress.Toured

namespace Engine

variable {e : Engine} {w : Wiring} {b : Behaviour} {gives : Answering} {r : ResourceClass}

/-- Providers are visited for a class in the order of registration, and none after the class is
covered; what providers are called for is what the visits say. A provider that may be asked gets one
request, for what is missing or what its limit leaves, whichever is less, and none if its limit
leaves nothing. If the class is not covered in the end, all were visited.

As far as providers deliver what they are asked for, each is asked for what the limits of those
before it leave to be covered, and in the end what all limits leave is covered. If no two of the
providers that may be asked have one identifier, these limits are those at the beginning. -/
theorem first_fit {s : Site L} {st : ReviewState} {own : List Call} {g : Progress L}
    (hb : b.Gives gives)
    (works : e.Works w b gives s (e.visit w b r [] e.providers s st) own g) :
    ∃ visits : List (Visit L),
      g.Toured e w b gives (e.providers.map (r, ·)) (s, st) [] visits ∧
      own = visits.flatMap (·.calls e b) ∧
      visits.map (·.provider) <+: e.providers ∧
      (∀ v ∈ visits, v.resource = r ∧ v.state.unsatisfied r ≠ 0 ∧
        (∀ a, v.answer = some a → gives (v.request e b) a) ∧
        SimulatedProvider.requests (v.calls e b) v.provider.id =
          if v.eligible e b ∧ v.remaining ≠ 0 then [(r, min (v.state.unsatisfied r) v.remaining)]
          else []) ∧
      (∀ s' st', g = .settled s' st' → st'.unsatisfied r ≠ 0 →
        visits.map (·.provider) = e.providers) ∧
      ((∀ v ∈ visits, v.Exact e b) →
        (∀ before v after, visits = before ++ v :: after → v.eligible e b = true →
          (v.units e b).toNat =
            min v.remaining.toNat ((st.unsatisfied r).toNat - Visit.limits e b before)) ∧
        ∀ s' st', g = .settled s' st' →
          (st'.unsatisfied r).toNat = (st.unsatisfied r).toNat - Visit.limits e b visits) ∧
      (((visits.filter (·.eligible e b)).map (·.provider.id)).Nodup → ∀ v ∈ visits,
        v.eligible e b = true →
          v.remaining = (st.remainingLimit v.slot (Limiter.leaves v.site.limiter v.slot)).1) := by
  obtain ⟨visits, toured, calls⟩ := works.toured hb (visit_all_extends hb r s st)
  refine ⟨visits, toured, calls, toured.in_order, ?_, ?_, ?_, ?_⟩
  · intro v mem
    obtain ⟨before, after, split⟩ := List.append_of_mem mem
    obtain ⟨left, tour, missing⟩ := toured.turn split
    have own : v.resource = r := tour.resource_eq
    have requests := Visit.requests_calls (e := e) (b := b) missing
    rw [own] at missing requests
    exact ⟨own, missing, fun a said => toured.given mem said, requests⟩
  · rintro s' st' rfl missing
    exact toured.all_visited missing
  · intro exact
    refine ⟨fun before v after split may => toured.units_eq exact split may, ?_⟩
    rintro s' st' rfl
    cases toured with
    | settled tour => exact tour.unsatisfied_eq exact
  · exact fun once v mem may => toured.remaining_eq once mem may

end Engine

/-! ## Two providers -/

namespace Sample

/-- Providers deliver what they are asked for, the first one at once, as long as fewer than three
units are planned with them. -/
def prompt : Behaviour where
  headroom _ _ _ n := .ok (decide (n < 3))
  respond _ created q :=
    if q.provider.id = .ofNat 1 then
      some (.ok [⟨.fresh created, q.provider.id, q.resource, q.units⟩])
    else none

theorem prompt_exact : prompt.Gives Answer.Exact := by
  intro calls created q a said
  simp only [prompt] at said
  split at said
  · cases said
    exact ⟨_, rfl, Nat.add_zero _⟩
  · cases said

def engine : Engine := { providers := [provider 1, provider 2] }

/-- Four items wait, and one unit is left with the first provider. -/
def short : ReviewState where
  review := .fresh 0
  classes := (∅ : Table ResourceClass ClassDemand).insert .unlabeled ⟨[], ⟨4, 0, 0⟩⟩
  budget := ⟨(∅ : Table Slot Count).insert ⟨.ofNat 1, .unlabeled⟩ 1⟩

/-- The engine plans for the items. -/
def planning : Progress StaticLimiter :=
  engine.visit wiring prompt .unlabeled [] engine.providers start.site short

/-- The second provider delivers two units. -/
def delivery : Answer := .ok [⟨.fresh 1, .ofNat 2, .unlabeled, 2⟩]

end Sample

/-- One unit comes from the first provider, two come from the second one after a while, and one is
missing in the end. -/
theorem fit_of_sample : ∃ (own : List Call) (s : Site StaticLimiter) (st : ReviewState),
    Sample.engine.Works Sample.wiring Sample.prompt Answer.Exact Sample.start.site Sample.planning
      own (.settled s st) ∧
    SimulatedProvider.requests own (.ofNat 1) = [(.unlabeled, 1)] ∧
    SimulatedProvider.requests own (.ofNat 2) = [(.unlabeled, 2)] ∧
    st.unsatisfied .unlabeled = 1 ∧
    ∃ visits : List (Visit StaticLimiter),
      own = visits.flatMap (·.calls Sample.engine Sample.prompt) ∧
      visits.map (·.provider) = Sample.engine.providers ∧
      1 = 4 - Visit.limits Sample.engine Sample.prompt visits := by
  obtain ⟨s₁, st₁, pause, own, more, waits, calls, s₂, st₂, goesOn, calls', first, second, missing,
      given⟩ :
      ∃ s₁ st₁ pause own more, Sample.planning = .waiting s₁ st₁ pause ∧
        s₁.calls = Sample.start.site.calls ++ own ∧
      ∃ s₂ st₂, Sample.engine.resume Sample.wiring Sample.prompt pause Sample.delivery s₁ st₁ =
          .settled s₂ st₂ ∧
        s₂.calls = s₁.calls ++ more ∧
        SimulatedProvider.requests (own ++ more) (.ofNat 1) = [(.unlabeled, 1)] ∧
        SimulatedProvider.requests (own ++ more) (.ofNat 2) = [(.unlabeled, 2)] ∧
        st₂.unsatisfied .unlabeled = 1 ∧ Answer.Exact pause.request Sample.delivery :=
    ⟨_, _, _, _, [], rfl, rfl, _, _, rfl, rfl, by rfl, by rfl, by decide, _, rfl, by decide⟩
  have works : Sample.engine.Works Sample.wiring Sample.prompt Answer.Exact Sample.start.site
      Sample.planning (own ++ more) (.settled s₂ st₂) := by
    rw [waits, ← goesOn]
    refine .resume (.start calls) (List.prefix_refl _) given ?_
    rw [goesOn]
    exact calls'
  obtain ⟨visits, -, same, -, each, all, closed, -⟩ :=
    Engine.first_fit Sample.prompt_exact works
  have uncovered : st₂.unsatisfied .unlabeled ≠ 0 := by
    rw [missing]
    decide
  have left := (closed fun v mem => (each v mem).2.2.1).2 s₂ st₂ rfl
  rw [missing] at left
  exact ⟨_, s₂, st₂, works, first, second, missing, visits, same, all s₂ st₂ rfl uncovered, left⟩

end Muster
