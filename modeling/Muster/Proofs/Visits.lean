import Muster.Proofs.Stock

/-!
# Visits

An engine visits providers for a class, one after the other, and goes on to the next class. A
`Visit` holds what there was when the provider's turn came, and what the engine does then is read
off it: whether the provider is eligible, what is left of its limit, how many units it is asked for
and which calls it gets. While a provider has not answered, others may do whatever they like to the
site; what the review knows is its own.

`Engine.Tours` puts visits in a row. Each stop, a class and a provider, is visited unless the class
is covered by then, and a class that is covered stays so: leaving out the stops that are left for it
is what the engine does when it breaks off.

**Main statements.** `Engine.Works.toured`: whatever answers come and whatever others do, the calls
of an engine at work are those of its visits. `Visit.Leads.unsatisfied`, `Visit.Leads.plannedFor`,
`Visit.Leads.budget` and `Visit.Leads.left` say what a visit changes. `Progress.Toured.turn`: what
there was when the turn of a visit came is what the visits before it had led to.
-/

namespace Muster

variable {L : Type}

/-- A provider's turn for a class. -/
structure Visit (L : Type) where
  resource : ResourceClass
  provider : Provider
  /-- The site when the turn comes. -/
  site : Site L
  /-- What the review knows when the turn comes. -/
  state : ReviewState
  /-- The answer to the request, if one was put to the provider and it has answered. -/
  answer : Option Answer

namespace Visit

/-- The class and the provider. -/
def stop (v : Visit L) : ResourceClass × Provider := (v.resource, v.provider)

def slot (v : Visit L) : Slot := ⟨v.provider.id, v.resource⟩

section Questions

variable (e : Engine) (b : Behaviour) (v : Visit L)

/-- The engine may turn to the provider. -/
def admitted : Bool := v.provider.serves v.resource && e.filter v.provider v.resource

/-- What the provider says about its headroom. -/
def headroom : Except ProviderError Bool :=
  b.headroom v.site.calls v.provider v.resource (v.state.plannedFor v.provider.id)

/-- The provider may be asked for capacity. One that cannot say is left out. -/
def eligible : Bool :=
  v.admitted e && match v.headroom b with
    | .ok yes => yes
    | .error _ => false

/-- The question about headroom, if there is one. -/
def questions : List Call :=
  if v.admitted e then [⟨some v.state.review, v.provider.id, v.resource,
    .headroom (v.state.plannedFor v.provider.id) (v.headroom b)⟩]
  else []

end Questions

variable {e : Engine} {b : Behaviour} {v : Visit L}

theorem eligible_iff : v.eligible e b = true ↔
    (v.provider.serves v.resource && e.filter v.provider v.resource) = true ∧
      v.headroom b = .ok true := by
  rw [eligible, admitted, Bool.and_eq_true]
  refine and_congr_right fun _ => ?_
  rcases v.headroom b with error | yes <;> simp

theorem question_of_mem {call : Call} (mem : call ∈ v.questions e b) :
    ∃ n answer, call.question = .headroom n answer := by
  rw [questions] at mem
  split at mem
  · rw [List.mem_singleton.1 mem]
    exact ⟨_, _, rfl⟩
  · cases mem

end Visit

namespace Engine

theorem isEligible_eq (e : Engine) (b : Behaviour) (v : Visit L) :
    e.isEligible b v.resource v.provider v.site v.state =
      (v.eligible e b, { v.site with calls := v.site.calls ++ v.questions e b }) := by
  have may : (v.provider.serves v.resource && e.filter v.provider v.resource) = v.admitted e := rfl
  cases pass : v.admitted e with
  | false =>
    rw [pass] at may
    rw [isEligible, if_neg (Bool.eq_false_iff.1 may), Visit.eligible, Visit.questions, pass,
      Bool.false_and, if_neg Bool.false_ne_true, List.append_nil]
  | true =>
    rw [pass] at may
    rw [isEligible, if_pos may, Visit.eligible, Visit.questions, pass, Bool.true_and, if_pos rfl]
    simp only [Site.askHeadroom, Visit.headroom]
    rcases b.headroom v.site.calls v.provider v.resource (v.state.plannedFor v.provider.id) with
      error | yes
    · rfl
    · cases yes <;> rfl

/-- The stops on the way through these classes. -/
def stops (e : Engine) (rs : List ResourceClass) : List (ResourceClass × Provider) :=
  rs.flatMap fun r => e.providers.map (r, ·)

/-- The stops on the way of an engine that is started. -/
def route (e : Engine) (st : ReviewState) : List (ResourceClass × Provider) :=
  if e.enabled then e.stops st.classes.keys else []

theorem listed_of_route {e : Engine} {st : ReviewState} {stop : ResourceClass × Provider}
    (mem : stop ∈ e.route st) : stop.2 ∈ e.providers := by
  rw [route] at mem
  split at mem
  · obtain ⟨r, -, mem⟩ := List.mem_flatMap.1 mem
    obtain ⟨p, listed, rfl⟩ := List.mem_map.1 mem
    exact listed
  · cases mem

end Engine

variable [Limiter L]

namespace Visit

section Requests

variable (e : Engine) (b : Behaviour) (v : Visit L)

/-- What is left of the provider's limit. -/
def remaining : Count := (v.state.remainingLimit v.slot (Limiter.leaves v.site.limiter v.slot)).1

/-- The units that the provider is asked for; zero stands for no request. -/
def units : Count := if v.eligible e b then min (v.state.unsatisfied v.resource) v.remaining else 0

def request : Request := ⟨v.provider, v.resource, v.units e b⟩

/-- What the review knows once the limit was looked up. -/
def informed : ReviewState :=
  if v.eligible e b then (v.state.remainingLimit v.slot (Limiter.leaves v.site.limiter v.slot)).2
  else v.state

/-- The calls that the provider gets. -/
def calls : List Call :=
  v.questions e b ++ if v.units e b = 0 then []
    else [⟨some v.state.review, v.provider.id, v.resource, .provision (v.units e b)⟩]

/-- The site once the provider has got its calls. -/
def called : Site L := { v.site with calls := v.site.calls ++ v.calls e b }

/-- Without a request the next turn comes at once; else others act until the provider answers. -/
inductive Leads (w : Wiring) (gives : Answering) : Site L × ReviewState → Prop
  | idle : v.answer = none → v.units e b = 0 → Leads w gives (v.called e b, v.informed e b)
  | answered {a s} : v.answer = some a → v.units e b ≠ 0 → gives (v.request e b) a →
      (v.called e b).calls <+: s.calls →
      Leads w gives (Engine.accept w (v.request e b) a s (v.informed e b))

end Requests

end Visit

/-! ## What a visit does -/

namespace Engine

variable {e : Engine} {w : Wiring} {b : Behaviour} {gives : Answering}

theorem consult_eq (v : Visit L) : e.consult b v.resource v.provider v.site v.state =
    (v.units e b, { v.site with calls := v.site.calls ++ v.questions e b }, v.informed e b) := by
  simp only [consult, isEligible_eq, readLimit_eq, Visit.units, Visit.informed]
  cases v.eligible e b <;> rfl

end Engine

namespace Visit

variable {e : Engine} {b : Behaviour} {v : Visit L}

theorem resource_of_mem {call : Call} (mem : call ∈ v.calls e b) : call.resource = v.resource := by
  rw [calls, questions] at mem
  rcases List.mem_append.1 mem with mem | mem <;> split at mem
  · rw [List.mem_singleton.1 mem]
  · cases mem
  · cases mem
  · rw [List.mem_singleton.1 mem]

/-- A provider that may not be asked for capacity is asked for its headroom at most. -/
theorem calls_of_not_eligible (no : v.eligible e b = false) : v.calls e b = v.questions e b := by
  rw [calls, units, no, if_neg Bool.false_ne_true, if_pos rfl, List.append_nil]

theorem review_informed : (v.informed e b).review = v.state.review := by
  rw [informed]
  split <;> rfl

/-- A provider that is asked for no units gets no more than the question about headroom. -/
theorem called_of_idle (idle : v.units e b = 0) :
    v.called e b = { v.site with calls := v.site.calls ++ v.questions e b } := by
  rw [called, calls, if_pos idle, List.append_nil]

theorem askCapacity_eq (asks : v.units e b ≠ 0) :
    Site.askCapacity b (some (v.informed e b).review) (v.request e b)
        { v.site with calls := v.site.calls ++ v.questions e b } =
      (b.respond (v.site.calls ++ v.questions e b) v.site.created.length (v.request e b),
        v.called e b) := by
  rw [called, calls, if_neg asks, ← List.append_assoc, review_informed]
  rfl

end Visit

/-! ## Visits in a row -/

namespace Engine

/-- An engine that set out from `x` on the way through `stops` has made these visits; the stops
`left` are still before it. -/
inductive Tours (e : Engine) (w : Wiring) (b : Behaviour) (gives : Answering)
    (stops : List (ResourceClass × Provider)) (x : Site L × ReviewState) :
    List (Visit L) → List (ResourceClass × Provider) → Site L × ReviewState → Prop
  | start : Tours e w b gives stops x [] stops x
  /-- The class is covered. -/
  | pass {visits r p left s st} : Tours e w b gives stops x visits ((r, p) :: left) (s, st) →
      st.unsatisfied r = 0 → Tours e w b gives stops x visits left (s, st)
  | visit {visits v left y} : Tours e w b gives stops x visits (v.stop :: left) (v.site, v.state) →
      v.state.unsatisfied v.resource ≠ 0 → v.Leads e b w gives y →
      Tours e w b gives stops x (visits ++ [v]) left y

end Engine

/-- The site that an engine has left behind so far. -/
def Progress.site : Progress L → Site L
  | .settled s _ | .waiting s _ _ => s

/-- The engine has made these visits and either has come to the stops `left` or waits for the last
provider. -/
inductive Progress.Toured (e : Engine) (w : Wiring) (b : Behaviour) (gives : Answering)
    (stops : List (ResourceClass × Provider)) (x : Site L × ReviewState)
    (left : List (ResourceClass × Provider)) : List (Visit L) → Progress L → Prop
  | settled {visits s st} : e.Tours w b gives stops x visits left (s, st) →
      Toured e w b gives stops x left visits (.settled s st)
  | waiting {visits v pause} : e.Tours w b gives stops x visits
        (v.stop :: (pause.providersLeft.map (v.resource, ·) ++ e.stops pause.classesLeft))
        (v.site, v.state) →
      v.state.unsatisfied v.resource ≠ 0 → v.answer = none → v.units e b ≠ 0 →
      pause.request = v.request e b →
      Toured e w b gives stops x left (visits ++ [v])
        (.waiting (v.called e b) (v.informed e b) pause)

/-- After the visits before, more were made, and since then the calls are theirs. -/
def Progress.Extends (e : Engine) (w : Wiring) (b : Behaviour) (gives : Answering)
    (stops : List (ResourceClass × Provider)) (x : Site L × ReviewState)
    (left : List (ResourceClass × Provider)) (before : List (Visit L)) (calls : List Call)
    (g : Progress L) : Prop :=
  ∃ new, g.Toured e w b gives stops x left (before ++ new) ∧
    g.site.calls = calls ++ new.flatMap (·.calls e b)

/-- An engine goes on with later classes when it is through with one. -/
def Progress.further (e : Engine) (w : Wiring) (b : Behaviour) (later : List ResourceClass) :
    Progress L → Progress L
  | .settled s st => e.visitClasses w b later s st
  | .waiting s st pause => .waiting s st pause

namespace Engine

variable {e : Engine} {w : Wiring} {b : Behaviour} {gives : Answering}
  {stops : List (ResourceClass × Provider)} {x : Site L × ReviewState}

theorem visitClasses_cons (r : ResourceClass) (later : List ResourceClass) (s : Site L)
    (st : ReviewState) : e.visitClasses w b (r :: later) s st =
      (e.visit w b r later e.providers s st).further e w b later := by
  simp only [visitClasses]
  cases e.visit w b r later e.providers s st <;> rfl

theorem resume_further (pause : Pause) (a : Answer) (s : Site L) (st : ReviewState) :
    e.resume w b pause a s st = (e.visit w b pause.request.resource pause.classesLeft
      pause.providersLeft (accept w pause.request a s st).1
      (accept w pause.request a s st).2).further e w b pause.classesLeft := by
  simp only [resume]
  cases e.visit w b pause.request.resource pause.classesLeft pause.providersLeft
    (accept w pause.request a s st).1 (accept w pause.request a s st).2 <;> rfl

theorem accept_calls (q : Request) (a : Answer) (s : Site L) (st : ReviewState) :
    (accept w q a s st).1.calls = s.calls := by
  obtain ⟨_, _, _, _, _, same⟩ := accept_frame w q a s st
  rw [same]

/-- No stop is left for a class that is covered. -/
theorem Tours.passes {visits : List (Visit L)} {r : ResourceClass} (ps : Registry)
    {left : List (ResourceClass × Provider)} {s : Site L} {st : ReviewState}
    (tour : e.Tours w b gives stops x visits (ps.map (r, ·) ++ left) (s, st))
    (covered : st.unsatisfied r = 0) : e.Tours w b gives stops x visits left (s, st) := by
  induction ps with
  | nil => exact tour
  | cons p rest ih => exact ih (tour.pass covered)

theorem Tours.extends {before : List (Visit L)} {left : List (ResourceClass × Provider)}
    {s : Site L} {st : ReviewState} (tour : e.Tours w b gives stops x before left (s, st)) :
    (Progress.settled s st).Extends e w b gives stops x left before s.calls :=
  ⟨[], .settled (by rwa [List.append_nil]), (List.append_nil _).symm⟩

/-- A visit is over when the answer to its request is taken in. -/
theorem Tours.answered {before : List (Visit L)} {v : Visit L}
    {left : List (ResourceClass × Provider)}
    (tour : e.Tours w b gives stops x before (v.stop :: left) (v.site, v.state))
    (missing : v.state.unsatisfied v.resource ≠ 0) (asks : v.units e b ≠ 0) {a : Answer}
    (given : gives (v.request e b) a) {s : Site L} (later : (v.called e b).calls <+: s.calls) :
    e.Tours w b gives stops x (before ++ [{ v with answer := some a }]) left
      ((accept w (v.request e b) a s (v.informed e b)).1,
        (accept w (v.request e b) a s (v.informed e b)).2) :=
  tour.visit (v := { v with answer := some a }) missing (.answered rfl asks given later)

/-- The visits after one more visit are visits after those before it. -/
theorem extends_of_visit {v : Visit L} {left : List (ResourceClass × Provider)}
    {before : List (Visit L)} {g : Progress L}
    (h : g.Extends e w b gives stops x left (before ++ [v]) (v.called e b).calls) :
    g.Extends e w b gives stops x left before v.site.calls := by
  obtain ⟨new, toured, calls⟩ := h
  rw [List.append_assoc, List.singleton_append] at toured
  refine ⟨v :: new, toured, calls.trans ?_⟩
  rw [List.flatMap_cons, ← List.append_assoc]
  rfl

/-- The engine makes the visits for a class one after the other, until it is covered. -/
theorem visit_extends (hb : b.Gives gives) {r : ResourceClass} {later : List ResourceClass}
    {ps : Registry} {before : List (Visit L)} {s : Site L} {st : ReviewState}
    (tour : e.Tours w b gives stops x before (ps.map (r, ·) ++ e.stops later) (s, st)) :
    (e.visit w b r later ps s st).Extends e w b gives stops x (e.stops later) before s.calls := by
  induction ps generalizing before s st with
  | nil => exact tour.extends
  | cons p rest ih =>
    simp only [visit]
    by_cases covered : st.unsatisfied r = 0
    · rw [if_pos covered]
      exact (tour.passes (p :: rest) covered).extends
    rw [if_neg covered]
    let v : Visit L := ⟨r, p, s, st, none⟩
    have consulted : e.consult b r p s st = _ := consult_eq v
    rw [consulted]
    by_cases idle : v.units e b = 0
    · simp only [if_pos idle]
      rw [← Visit.called_of_idle idle]
      exact extends_of_visit (ih (tour.visit (v := v) covered (.idle rfl idle)))
    · simp only [if_neg idle]
      have asked := Visit.askCapacity_eq idle
      simp only [Visit.request] at asked
      rw [asked]
      cases said : b.respond (v.site.calls ++ v.questions e b) v.site.created.length
          ⟨v.provider, v.resource, v.units e b⟩ with
      | none =>
        refine ⟨[v], .waiting tour covered rfl idle rfl, ?_⟩
        rw [List.flatMap_singleton]
        rfl
      | some a =>
        have more := ih (tour.answered covered idle (hb _ _ _ _ said) (List.prefix_refl _))
        rw [accept_calls] at more
        exact extends_of_visit (v := { v with answer := some a }) more

/-- Visits for later classes come after those for a class. -/
theorem further_extends {later : List ResourceClass}
    (classes : ∀ (before : List (Visit L)) (s : Site L) (st : ReviewState),
      e.Tours w b gives stops x before (e.stops later) (s, st) →
        (e.visitClasses w b later s st).Extends e w b gives stops x [] before s.calls)
    {before : List (Visit L)} {calls : List Call} {g : Progress L}
    (h : g.Extends e w b gives stops x (e.stops later) before calls) :
    (g.further e w b later).Extends e w b gives stops x [] before calls := by
  obtain ⟨new, toured, eq⟩ := h
  generalize all : before ++ new = visits at toured
  cases toured with
  | waiting tour missing silent asks same =>
    exact ⟨new, by rw [all]; exact .waiting tour missing silent asks same, eq⟩
  | settled tour =>
    rename_i s st
    obtain ⟨more, toured, eq'⟩ := classes visits s st tour
    rw [← all, List.append_assoc] at toured
    refine ⟨new ++ more, toured, eq'.trans ?_⟩
    have eq : s.calls = calls ++ new.flatMap (·.calls e b) := eq
    rw [eq, List.flatMap_append, List.append_assoc]

theorem visitClasses_extends (hb : b.Gives gives) (rs : List ResourceClass)
    (before : List (Visit L)) (s : Site L) (st : ReviewState)
    (tour : e.Tours w b gives stops x before (e.stops rs) (s, st)) :
    (e.visitClasses w b rs s st).Extends e w b gives stops x [] before s.calls := by
  induction rs generalizing before s st with
  | nil => exact tour.extends
  | cons r later ih =>
    rw [visitClasses_cons]
    exact further_extends ih (visit_extends hb tour)

theorem start_extends (hb : b.Gives gives) (s : Site L) (st : ReviewState) :
    (e.start w b s st).Extends e w b gives (e.route st) (s, st) [] [] s.calls := by
  rw [start, route]
  split
  · exact visitClasses_extends hb _ _ _ _ .start
  · exact Tours.start.extends

theorem visit_all_extends (hb : b.Gives gives) (r : ResourceClass) (s : Site L)
    (st : ReviewState) : (e.visit w b r [] e.providers s st).Extends e w b gives
      (e.providers.map (r, ·)) (s, st) [] [] s.calls := by
  have tour : e.Tours w b gives (e.providers.map (r, ·)) (s, st) []
      (e.providers.map (r, ·) ++ e.stops []) (s, st) := by
    rw [stops, List.flatMap_nil, List.append_nil]
    exact .start
  exact visit_extends hb tour

/-- The last visit is over when its answer comes; others may have acted in the meantime. -/
theorem resume_extends (hb : b.Gives gives) {visits : List (Visit L)} {s s' : Site L}
    {st : ReviewState} {pause : Pause} {a : Answer}
    (toured : (Progress.waiting s st pause).Toured e w b gives stops x [] visits)
    (later : s.calls <+: s'.calls) (given : gives pause.request a) :
    ∃ visits', visits'.flatMap (·.calls e b) = visits.flatMap (·.calls e b) ∧
      (e.resume w b pause a s' st).Extends e w b gives stops x [] visits' s'.calls := by
  cases toured with
  | @waiting before v _ tour missing silent asks same =>
    rw [same] at given
    have more := visit_extends hb (tour.answered missing asks given later)
    rw [accept_calls] at more
    refine ⟨before ++ [{ v with answer := some a }], ?_, ?_⟩
    · rw [List.flatMap_append, List.flatMap_append]
      rfl
    · rw [resume_further, same]
      exact further_extends (visitClasses_extends hb _) more

/-- An engine at work: what it has called so far and how far it got, having started at `s` and got
to `g₀` in one go. While it waits, others act; it goes on with any answer that may be given. -/
inductive Works (e : Engine) (w : Wiring) (b : Behaviour) (gives : Answering) (s : Site L)
    (g₀ : Progress L) : List Call → Progress L → Prop
  | start {own} : g₀.site.calls = s.calls ++ own → Works e w b gives s g₀ own g₀
  | resume {own more s₁ s₂ st pause a} : Works e w b gives s g₀ own (.waiting s₁ st pause) →
      s₁.calls <+: s₂.calls → gives pause.request a →
      (e.resume w b pause a s₂ st).site.calls = s₂.calls ++ more →
      Works e w b gives s g₀ (own ++ more) (e.resume w b pause a s₂ st)

theorem Works.toured (hb : b.Gives gives) {s : Site L} {g₀ g : Progress L} {own : List Call}
    (works : e.Works w b gives s g₀ own g)
    (began : g₀.Extends e w b gives stops x [] [] s.calls) :
    ∃ visits, g.Toured e w b gives stops x [] visits ∧ own = visits.flatMap (·.calls e b) := by
  induction works with
  | start calls =>
    obtain ⟨visits, toured, eq⟩ := began
    exact ⟨visits, toured, List.append_cancel_left (calls.symm.trans eq)⟩
  | resume _ later given calls ih =>
    obtain ⟨visits, toured, own⟩ := ih
    obtain ⟨visits', same, new, toured', eq⟩ := resume_extends hb toured later given
    refine ⟨visits' ++ new, toured', ?_⟩
    rw [List.flatMap_append, same, own, List.append_cancel_left (calls.symm.trans eq)]

end Engine

/-! ## What a visit changes -/

theorem Count.satSub_zero (a : Count) : a.satSub 0 = a := by
  refine UInt32.toNat_inj.1 ?_
  rw [toNat_satSub]
  rfl

/-- The units that an answer brings. -/
def Answer.units : Answer → Count
  | .ok planned => PlannedCapacity.totalUnits planned
  | .error _ => 0

namespace ReviewState

/-- Units were planned for a slot that has been looked up. -/
structure Gains (slot : Slot) (units : Count) (st st' : ReviewState) : Prop where
  unsatisfied : ∀ r, (st'.unsatisfied r).toNat =
    (st.unsatisfied r).toNat - if r = slot.resource then units.toNat else 0
  plannedFor : ∀ p, st'.plannedFor p = st.plannedFor p + if p = slot.provider then units else 0
  budget : ∀ other, other ≠ slot →
    st'.budget.remaining.find? other = st.budget.remaining.find? other
  left : ∀ left, st.budget.remaining.find? slot = some left →
    st'.budget.remaining.find? slot = some (left.satSub units)

theorem Gains.none (slot : Slot) (st : ReviewState) : st.Gains slot 0 st where
  unsatisfied r := by simp
  plannedFor p := by simp
  budget _ _ := rfl
  left left found := by rw [found, Count.satSub_zero]

theorem gains_recordPlanned (st : ReviewState) (slot : Slot) (planned : List PlannedCapacity) :
    Gains slot (PlannedCapacity.totalUnits planned) st
      (st.recordPlanned slot.resource slot.provider planned).2 where
  unsatisfied r := by
    rw [unsatisfied_eq, unsatisfied_eq, counts?_recordPlanned]
    by_cases own : r = slot.resource
    · subst own
      rw [if_pos rfl, if_pos rfl]
      cases st.counts? slot.resource with
      | none => simp
      | some c => exact c.toNat_shortfall_recordPlanned _
    · rw [if_neg own, if_neg own, Nat.sub_zero]
  plannedFor := plannedFor_recordPlanned st _ _ _
  budget other ne := by
    rw [budget_recordPlanned]
    simp only [Budget.consume, Table.find?_insert, if_neg ne]
  left left found := by
    rw [budget_recordPlanned]
    simp only [Budget.consume, Table.find?_insert, if_pos, Table.findD, found, Option.getD_some]

/-- The limit is read once. -/
theorem fst_remainingLimit (st : ReviewState) (slot : Slot) (limit : Count) :
    (st.remainingLimit slot limit).1 = (st.budget.remaining.find? slot).getD limit := by
  simp only [remainingLimit, Budget.lookUp]
  cases st.budget.remaining.find? slot <;> rfl

end ReviewState

theorem Engine.accept_gains (w : Wiring) (q : Request) (a : Answer) (s : Site L)
    (st : ReviewState) : ReviewState.Gains ⟨q.provider.id, q.resource⟩ (Answer.units a) st
      (accept w q a s st).2 := by
  cases a with
  | error e => exact .none _ st
  | ok planned =>
    rcases taken : accept w q (.ok planned) s st with ⟨s', st'⟩
    obtain ⟨-, ⟨none, -, same⟩ | ⟨-, -, gained⟩⟩ := accept_stock taken
    · rw [same, Answer.units, none]
      exact .none _ st
    · rw [gained]
      exact ReviewState.gains_recordPlanned st ⟨q.provider.id, q.resource⟩ planned

namespace Visit

variable {e : Engine} {b : Behaviour} {w : Wiring} {gives : Answering} {v : Visit L}
  {y : Site L × ReviewState}

/-- The units that the visit brings. -/
def delivered (v : Visit L) : Count := (v.answer.map Answer.units).getD 0

theorem unsatisfied_informed (r : ResourceClass) :
    (v.informed e b).unsatisfied r = v.state.unsatisfied r := by
  rw [informed]
  split <;> rfl

theorem plannedFor_informed (p : ProviderId) :
    (v.informed e b).plannedFor p = v.state.plannedFor p := by
  rw [informed]
  split <;> rfl

theorem budget_informed (other : Slot) (ne : other ≠ v.slot) :
    (v.informed e b).budget.remaining.find? other = v.state.budget.remaining.find? other := by
  rw [informed]
  split
  · simp only [ReviewState.remainingLimit, Budget.lookUp]
    split
    · rfl
    · rw [Table.find?_insert, if_neg ne]
  · rfl

theorem left_informed (may : v.eligible e b = true) :
    (v.informed e b).budget.remaining.find? v.slot = some v.remaining := by
  rw [informed, if_pos may]
  exact Engine.find?_remainingLimit v.state v.slot _

namespace Leads

theorem gains (h : v.Leads e b w gives y) :
    ReviewState.Gains v.slot v.delivered (v.informed e b) y.2 := by
  cases h with
  | idle silent idle =>
    rw [delivered, silent]
    exact .none _ _
  | @answered a s said asks given later =>
    rw [delivered, said]
    exact Engine.accept_gains w (v.request e b) a s (v.informed e b)

theorem calls (h : v.Leads e b w gives y) : (v.called e b).calls <+: y.1.calls := by
  cases h with
  | idle silent idle => exact List.prefix_refl _
  | answered said asks given later =>
    rw [Engine.accept_calls]
    exact later

/-- The answer, if there is one, is such as may be given. -/
theorem given (h : v.Leads e b w gives y) {a : Answer} (said : v.answer = some a) :
    gives (v.request e b) a := by
  cases h with
  | idle silent =>
    rw [silent] at said
    cases said
  | answered said' _ given =>
    rw [said'] at said
    cases said
    exact given

/-- The demand for the class is less by what was delivered. -/
theorem unsatisfied (h : v.Leads e b w gives y) (r : ResourceClass) :
    (y.2.unsatisfied r).toNat =
      (v.state.unsatisfied r).toNat - if r = v.resource then v.delivered.toNat else 0 := by
  rw [h.gains.unsatisfied, unsatisfied_informed]
  rfl

theorem plannedFor (h : v.Leads e b w gives y) (p : ProviderId) : y.2.plannedFor p =
    v.state.plannedFor p + if p = v.provider.id then v.delivered else 0 := by
  rw [h.gains.plannedFor, plannedFor_informed]
  rfl

/-- What is left at other providers stays, and at one that may not be asked. -/
theorem budget (h : v.Leads e b w gives y) {slot : Slot}
    (other : v.eligible e b = true → slot ≠ v.slot) :
    y.2.budget.remaining.find? slot = v.state.budget.remaining.find? slot := by
  by_cases may : v.eligible e b = true
  · rw [h.gains.budget slot (other may), budget_informed slot (other may)]
  · have idle : v.units e b = 0 := by rw [units, if_neg may]
    cases h with
    | idle => rw [informed, if_neg may]
    | answered _ asks => exact absurd idle asks

/-- What is left at the provider is less by what was delivered. -/
theorem left (h : v.Leads e b w gives y) (may : v.eligible e b = true) :
    y.2.budget.remaining.find? v.slot = some (v.remaining.satSub v.delivered) :=
  h.gains.left _ (left_informed may)

end Leads

end Visit

/-! ## Turns of a tour -/

/-- An element of a list with one more element is the last one or one of those before. -/
theorem split_concat {α : Type} {l before after : List α} {u v : α}
    (h : l ++ [u] = before ++ v :: after) :
    l = before ∧ u = v ∨ ∃ after', l = before ++ v :: after' := by
  rcases List.eq_nil_or_concat after with rfl | ⟨after', z, rfl⟩
  · obtain ⟨same, last⟩ := List.append_inj' h rfl
    exact .inl ⟨same, (List.cons.inj last).1⟩
  · rw [List.concat_eq_append, ← List.cons_append, ← List.append_assoc] at h
    exact .inr ⟨after', (List.append_inj' h rfl).1⟩

namespace Engine

variable {e : Engine} {w : Wiring} {b : Behaviour} {gives : Answering}
  {stops : List (ResourceClass × Provider)} {x y : Site L × ReviewState}
  {visits before after : List (Visit L)} {v : Visit L} {left : List (ResourceClass × Provider)}

/-- The stops come in order, and some may be left out. -/
theorem Tours.sublist (tour : e.Tours w b gives stops x visits left y) :
    (visits.map Visit.stop ++ left).Sublist stops := by
  induction tour with
  | start => exact List.Sublist.refl _
  | pass _ _ ih => exact (List.Sublist.append_left (List.sublist_cons_self _ _) _).trans ih
  | visit _ _ _ ih =>
    rw [List.map_append, List.append_assoc]
    exact ih

/-- Calls are added, and nothing else happens to them. -/
theorem Tours.calls (tour : e.Tours w b gives stops x visits left y) :
    x.1.calls <+: y.1.calls := by
  induction tour with
  | start => exact List.prefix_refl _
  | pass _ _ ih => exact ih
  | visit _ _ leads ih => exact (ih.trans (List.prefix_append _ _)).trans leads.calls

/-- Demand is covered, and none is added. -/
theorem Tours.unsatisfied_le (tour : e.Tours w b gives stops x visits left y)
    (r : ResourceClass) : (y.2.unsatisfied r).toNat ≤ (x.2.unsatisfied r).toNat := by
  induction tour with
  | start => exact Nat.le_refl _
  | pass _ _ ih => exact ih
  | visit _ _ leads ih =>
    exact Nat.le_trans (Nat.le_trans (leads.unsatisfied r).le (Nat.sub_le _ _)) ih

/-- When its turn came, what is before the visit was visited, and the class was not covered. -/
theorem Tours.turn (tour : e.Tours w b gives stops x visits left y)
    (split : visits = before ++ v :: after) :
    ∃ left', e.Tours w b gives stops x before (v.stop :: left') (v.site, v.state) ∧
      v.state.unsatisfied v.resource ≠ 0 := by
  induction tour generalizing after with
  | start => exact absurd split (by simp)
  | pass _ _ ih => exact ih split
  | visit tour missing _ ih =>
    rcases split_concat split with ⟨rfl, rfl⟩ | ⟨after', split⟩
    · exact ⟨_, tour, missing⟩
    · exact ih split

theorem Tours.given (tour : e.Tours w b gives stops x visits left y) (mem : v ∈ visits)
    {a : Answer} (said : v.answer = some a) : gives (v.request e b) a := by
  induction tour with
  | start => cases mem
  | pass _ _ ih => exact ih mem
  | @visit visits u left y _ _ leads ih =>
    rcases List.mem_append.1 mem with mem | last
    · exact ih mem
    · cases List.mem_singleton.1 last
      exact leads.given said

end Engine

namespace Progress.Toured

variable {e : Engine} {w : Wiring} {b : Behaviour} {gives : Answering}
  {stops : List (ResourceClass × Provider)} {x : Site L × ReviewState}
  {visits before after : List (Visit L)} {v : Visit L} {left : List (ResourceClass × Provider)}
  {g : Progress L}

theorem turn (toured : g.Toured e w b gives stops x left visits)
    (split : visits = before ++ v :: after) :
    ∃ left', e.Tours w b gives stops x before (v.stop :: left') (v.site, v.state) ∧
      v.state.unsatisfied v.resource ≠ 0 := by
  cases toured with
  | settled tour => exact tour.turn split
  | waiting tour missing =>
    rcases split_concat split with ⟨rfl, rfl⟩ | ⟨after', split⟩
    · exact ⟨_, tour, missing⟩
    · exact tour.turn split

/-- The answers to the requests of the visits are such as may be given. -/
theorem given (toured : g.Toured e w b gives stops x left visits) (mem : v ∈ visits) {a : Answer}
    (said : v.answer = some a) : gives (v.request e b) a := by
  cases toured with
  | settled tour => exact tour.given mem said
  | @waiting visits u _ tour _ silent =>
    rcases List.mem_append.1 mem with mem | last
    · exact tour.given mem said
    · rw [List.mem_singleton.1 last, silent] at said
      cases said

/-- A visit is to one of the stops. -/
theorem listed (toured : g.Toured e w b gives stops x left visits) (mem : v ∈ visits) :
    v.stop ∈ stops := by
  obtain ⟨before, after, split⟩ := List.append_of_mem mem
  obtain ⟨left', tour, -⟩ := toured.turn split
  exact tour.sublist.subset (List.mem_append_right _ List.mem_cons_self)

end Progress.Toured

end Muster
