import Muster.Proofs.Conservation

/-!
# Every request is justified

A docket follows a run and keeps a dossier on each review under way: the queue that the review
captured, the limits as they were first looked up, and the units that it has accepted so far. Each
request is put down as a plea, together with the dossier of that moment and all calls before it.

The state of a review is a digest of its dossier (`Dossier.Tells`). What a provider has planned is
what it had in flight at first and what was accepted from it; what is missing is the demand less the
capacity that was found and accepted; what is left in the budget is the first limit less what was
accepted in the slot. So the engine, which goes by its state, asks for what the dossier justifies.

The dossier takes nothing from the engine. Its limits are answers of the limiter
(`Limiter.leaves`), and what providers say is what they say on the calls before the question
(`Behaviour.Confirms`).

**Main statement.** `Run.requests_justified`: for chains of engines and the fallback, whatever
providers answer.
-/

namespace Muster

open Relation

/-- What a review found when it began, and what it has learnt and accepted since. -/
structure Dossier where
  review : ReviewId
  resource : ResourceClass
  /-- The queue when the review began. -/
  queue : Queue
  /-- What the limiter left to each slot when it was first looked up, zero if it failed. -/
  limits : Table Slot Count := ∅
  /-- The units that were accepted, answer by answer, and in which slot. -/
  accepted : List (Slot × Count) := []

namespace Dossier

/-- The units accepted in the slots that pass a test, answer by answer. -/
def acceptedIn (file : Dossier) (test : Slot → Bool) : List Count :=
  (file.accepted.filter fun a => test a.1).map Prod.snd

/-- The demand and the capacity that the review found. -/
def found (file : Dossier) : Snapshot := file.queue.snapshot file.resource

/-- The units that a provider had in flight when the review began, and those accepted from it. -/
def inFlightWith (file : Dossier) (p : ProviderId) : Count :=
  Count.total ((file.queue.inFlight.values.filter (·.provider == p)).map (·.units) ++
    file.acceptedIn (·.provider == p))

/-- The demand, as far as a count reaches, that neither the capacity that was found nor what was
accepted covers. -/
def uncovered (file : Dossier) : Nat :=
  min file.found.items.length 4294967295 - (file.found.available.toNat +
    file.found.inFlight.toNat + Count.exactSum (file.acceptedIn (·.resource == file.resource)))

/-- What is left of the limit of a slot that was looked up. -/
def left? (file : Dossier) (slot : Slot) : Option Nat :=
  (file.limits.find? slot).map fun limit =>
    limit.toNat - Count.exactSum (file.acceptedIn (· == slot))

/-- A limit is looked up; only the first look-up of a slot counts. -/
def look (file : Dossier) (slot : Slot) (limit : Count) : Dossier :=
  if file.limits.contains slot then file
  else { file with limits := file.limits.insert slot limit }

/-- The answer to a request is taken in. -/
def take (file : Dossier) (q : Request) : Answer → Dossier
  | .error _ => file
  | .ok planned => { file with accepted := file.accepted ++
      [(⟨q.provider.id, q.resource⟩, PlannedCapacity.totalUnits planned)] }

end Dossier

/-- A request, what the review that makes it knows at that moment, and what providers were asked
before. -/
structure Plea where
  file : Dossier
  request : Request
  before : List Call

namespace Plea

/-- The call that makes the request. -/
def call (plea : Plea) : Call :=
  ⟨some plea.file.review, plea.request.provider.id, plea.request.resource,
    .provision plea.request.units⟩

variable {L : Type}

/-- An engine of the chain may turn to the provider for the class under review, the provider has
just said that it has headroom beyond what it has in flight, and some units, not more than are
missing and not more than its limit leaves, are asked for. -/
structure Justified (b : Behaviour) (c : Chain L) (plea : Plea) : Prop where
  admitted : ∃ e, .engine e ∈ c ∧ e.Admits plea.request.provider plea.request.resource
  resource : plea.request.resource = plea.file.resource
  headroom : b.Confirms plea.file.review plea.request.provider plea.request.resource
    (plea.file.inFlightWith plea.request.provider.id) plea.before
  positive : 1 ≤ plea.request.units.toNat
  needed : plea.request.units.toNat ≤ plea.file.uncovered
  allowed : ∃ left, plea.file.left? ⟨plea.request.provider.id, plea.request.resource⟩ = some left ∧
    plea.request.units.toNat ≤ left

/-- Each request among the calls is the call of a plea that knows what was asked before. -/
def Cover (pleas : List Plea) (calls : List Call) : Prop :=
  ∀ i call units, calls[i]? = some call → call.question = .provision units →
    ∃ plea ∈ pleas, plea.call = call ∧ plea.before = calls.take i

end Plea

variable {L : Type}

/-- A stride of a review, what it makes of the dossier, and the pleas that it enters. -/
inductive Noted [Limiter L] (w : Wiring) (b : Behaviour) (c : Chain L) (gives : Answering)
    (s : Site L) (st : ReviewState) (file : Dossier) :
    Site L × ReviewState → Dossier → List Plea → Prop
  | headroom {e p r} : .engine e ∈ c → e.Admits p r → Noted w b c gives s st file
      ({ s with calls := s.calls ++ [⟨some st.review, p.id, r, .headroom (st.plannedFor p.id)
        (b.headroom s.calls p r (st.plannedFor p.id))⟩] }, st) file []
  | limit (slot : Slot) : Noted w b c gives s st file
      (s, (st.remainingLimit slot (Limiter.leaves s.limiter slot)).2)
      (file.look slot (Limiter.leaves s.limiter slot)) []
  | request {e q} : .engine e ∈ c → e.Admits q.provider q.resource → st.Prompts b s.calls q →
      Noted w b c gives s st file ((s.askCapacity b (some st.review) q).2, st) file
        [⟨file, q, s.calls⟩]
  | accept {q a} : st.Warrants q → gives q a → Noted w b c gives s st file
      (Engine.accept w q a s st) (file.take q a) []
  | report (e : Event) : Noted w b c gives s st file (s.emit w e, st) file []

/-- A stage, the dossiers of the reviews under way, and the pleas so far. -/
structure Docket (L : Type) where
  stage : Stage L
  files : Table ResourceClass Dossier := ∅
  pleas : List Plea := []

namespace Docket

/-- The steps of a stage, as the docket follows them. -/
inductive Step [Limiter L] (w : Wiring) (b : Behaviour) (c : Chain L) (terms : Terms)
    (d : Docket L) : Docket L → Prop
  | move {m} : terms.moves m → Step w b c terms d { d with
      stage := { d.stage with site := m.apply w b d.stage.site } }
  | receive {q line} : d.stage.site.line.receive = some (q, line) → Step w b c terms d { d with
      stage := { d.stage with site := { d.stage.site with line } } }
  | begin {r} : d.stage.underway.find? r = none → Step w b c terms d { d with
      stage := {
        site := Cycle.opened r d.stage.site
        underway := d.stage.underway.insert r (Cycle.captured r d.stage.site)
        snapshots := d.stage.snapshots ++ [(r, d.stage.site.queue.snapshot r)] }
      files := d.files.insert r {
        review := Id.fresh d.stage.site.reviews
        resource := r
        queue := d.stage.site.queue } }
  | stride {r st file s st' file' pleas} : d.stage.underway.find? r = some st →
      d.files.find? r = some file →
      Noted w b c terms.answers d.stage.site st file (s, st') file' pleas → Step w b c terms d {
        stage := { d.stage with site := s, underway := d.stage.underway.insert r st' }
        files := d.files.insert r file'
        pleas := d.pleas ++ pleas }
  | conclude {r st t} : d.stage.underway.find? r = some st → Step w b c terms d { d with
      stage := { d.stage with
        site := (Cycle.conclude w r d.stage.site st t).1
        underway := d.stage.underway.erase r }
      files := d.files.erase r }

/-- Any number of steps. -/
abbrev Steps [Limiter L] (w : Wiring) (b : Behaviour) (c : Chain L) (terms : Terms) :
    Docket L → Docket L → Prop :=
  ReflTransGen (Step w b c terms)

end Docket

/-! ## Dossiers tell states -/

namespace Dossier

variable {file : Dossier} {st : ReviewState}

/-- The state of a review is what its dossier amounts to. -/
structure Tells (file : Dossier) (st : ReviewState) : Prop where
  review : st.review = file.review
  counts : ∃ n, st.counts? file.resource =
      some ⟨Count.ofLength file.found.items.length, file.found.available, n⟩ ∧
    n.toNat = min (file.found.inFlight.toNat +
      Count.exactSum (file.acceptedIn (·.resource == file.resource))) 4294967295
  alone : ∀ r, r ≠ file.resource → st.counts? r = none
  planned : ∀ p, st.plannedFor p = file.inFlightWith p
  limits : ∀ slot, (st.budget.remaining.find? slot).map UInt32.toNat = file.left? slot
  asked : ∀ a ∈ file.accepted, file.limits.contains a.1 = true

theorem Tells.uncovered_eq (h : file.Tells st) :
    (st.unsatisfied file.resource).toNat = file.uncovered := by
  obtain ⟨n, counts, inFlight⟩ := h.counts
  have demand := Count.toNat_ofLength file.found.items.length
  rw [ReviewState.unsatisfied_eq, counts]
  simp only [Option.map_some, Option.getD_some, CapacityCounts.toNat_shortfall, uncovered]
  omega

/-- A review begins with what it found. -/
theorem tells_captured (r : ResourceClass) (s : Site L) :
    Tells { review := Id.fresh s.reviews, resource := r, queue := s.queue }
      (Cycle.captured r s) := by
  refine ⟨rfl, ⟨(s.queue.snapshot r).inFlight, ?_, ?_⟩, ?_, ?_, fun _ => rfl, nofun⟩
  · rw [Cycle.counts?_captured, if_pos rfl]
    rfl
  · have small := Count.toNat_lt (s.queue.snapshot r).inFlight
    simp only [found, acceptedIn, List.filter_nil, List.map_nil, Count.exactSum]
    omega
  · intro r' other
    rw [Cycle.counts?_captured, if_neg other]
  · intro p
    simp only [inFlightWith, acceptedIn, List.filter_nil, List.map_nil, List.append_nil]
    exact Queue.findD_inFlightByProvider s.queue p

theorem left?_eq_none {slot : Slot} :
    file.left? slot = none ↔ file.limits.contains slot = false := by
  simp [left?, Table.contains]

/-- The budget knows the slots that were looked up. -/
theorem Tells.unread_iff (h : file.Tells st) {slot : Slot} :
    st.budget.remaining.find? slot = none ↔ file.limits.contains slot = false := by
  rw [← left?_eq_none, ← h.limits, Option.map_eq_none_iff]

theorem Tells.looked (h : file.Tells st) {slot : Slot} {left : Count}
    (budget : st.budget.remaining.find? slot = some left) : file.limits.contains slot = true := by
  by_contra unread
  rw [h.unread_iff.2 (by simpa using unread)] at budget
  cases budget

/-- Nothing is accepted in a slot before it is looked up. -/
theorem Tells.acceptedIn_unread (h : file.Tells st) {slot : Slot}
    (unread : file.limits.contains slot = false) : file.acceptedIn (· == slot) = [] := by
  simp only [acceptedIn, List.map_eq_nil_iff, List.filter_eq_nil_iff]
  intro a mem same
  obtain rfl : a.1 = slot := by simpa using same
  exact Bool.false_ne_true (unread.symm.trans (h.asked a mem))

/-- The first look-up of a slot finds its limit, later ones find what is left of it. -/
theorem Tells.look (h : file.Tells st) (slot : Slot) (limit : Count) :
    (file.look slot limit).Tells (st.remainingLimit slot limit).2 := by
  cases budget : st.budget.remaining.find? slot with
  | some left =>
    have same : (st.remainingLimit slot limit).2 = st := by
      simp only [ReviewState.remainingLimit, Budget.lookUp, budget]
    rw [Dossier.look, if_pos (h.looked budget), same]
    exact h
  | none =>
    -- Nothing was accepted in the slot so far, so the whole limit is left.
    have unread := h.unread_iff.1 budget
    have none := h.acceptedIn_unread unread
    rw [Dossier.look, if_neg (by simp [unread])]
    refine ⟨h.review, h.counts, h.alone, h.planned, ?_, ?_⟩
    · intro slot'
      simp only [ReviewState.remainingLimit, Budget.lookUp, budget, left?, Table.find?_insert]
      by_cases e : slot' = slot
      · subst e
        rw [if_pos rfl, if_pos rfl, Option.map_some, Option.map_some]
        show _ = some (limit.toNat - Count.exactSum (file.acceptedIn (· == slot')))
        rw [none]
        rfl
      · rw [if_neg e, if_neg e]
        exact h.limits slot'
    · intro a mem
      have known := h.asked a mem
      simp only [Table.contains, Table.find?_insert] at known ⊢
      split
      · rfl
      · exact known

@[simp] theorem resource_take (file : Dossier) (q : Request) (a : Answer) :
    (file.take q a).resource = file.resource := by
  cases a <;> rfl

@[simp] theorem found_take (file : Dossier) (q : Request) (a : Answer) :
    (file.take q a).found = file.found := by
  cases a <;> rfl

/-- What an answer brings is accepted in the slot of the request. -/
theorem acceptedIn_take (file : Dossier) (q : Request) (planned : List PlannedCapacity)
    (test : Slot → Bool) : (file.take q (.ok planned)).acceptedIn test = file.acceptedIn test ++
      if test ⟨q.provider.id, q.resource⟩ then [PlannedCapacity.totalUnits planned] else [] := by
  simp only [take, acceptedIn, List.filter_append, List.map_append]
  by_cases h : test ⟨q.provider.id, q.resource⟩ = true <;> simp [h]

theorem exactSum_take (file : Dossier) (q : Request) (planned : List PlannedCapacity)
    (test : Slot → Bool) : Count.exactSum ((file.take q (.ok planned)).acceptedIn test) =
      Count.exactSum (file.acceptedIn test) + if test ⟨q.provider.id, q.resource⟩ then
        (PlannedCapacity.totalUnits planned).toNat else 0 := by
  rw [acceptedIn_take, Count.exactSum_append]
  split <;> simp [Count.exactSum]

theorem inFlightWith_take (file : Dossier) (q : Request) (planned : List PlannedCapacity)
    (p : ProviderId) : (file.take q (.ok planned)).inFlightWith p = file.inFlightWith p +
      if p = q.provider.id then PlannedCapacity.totalUnits planned else 0 := by
  simp only [inFlightWith, acceptedIn_take, beq_iff_eq, eq_comm (a := q.provider.id)]
  by_cases e : p = q.provider.id
  · rw [if_pos e, if_pos e, ← List.append_assoc, Count.total_concat]
    rfl
  · rw [if_neg e, if_neg e, List.append_nil, UInt32.add_zero]
    rfl

theorem left?_take (file : Dossier) (q : Request) (planned : List PlannedCapacity) (slot : Slot) :
    (file.take q (.ok planned)).left? slot = (file.left? slot).map fun left =>
      left - if slot = ⟨q.provider.id, q.resource⟩ then
        (PlannedCapacity.totalUnits planned).toNat else 0 := by
  simp only [left?, exactSum_take, beq_iff_eq, eq_comm (a := slot), Nat.sub_add_eq, Option.map_map]
  rfl

theorem Tells.asked_take (h : file.Tells st) {q : Request} (warrant : st.Warrants q)
    (planned : List PlannedCapacity) :
    ∀ a ∈ (file.take q (.ok planned)).accepted, file.limits.contains a.1 = true := by
  intro a mem
  rcases List.mem_append.1 mem with old | new
  · exact h.asked a old
  · obtain ⟨left, budget, -⟩ := warrant.allowed
    rw [List.mem_singleton.1 new]
    exact h.looked budget

/-- Capacity of no units changes nothing. -/
theorem Tells.take_zero (h : file.Tells st) {q : Request} (warrant : st.Warrants q)
    {planned : List PlannedCapacity} (none : PlannedCapacity.totalUnits planned = 0) :
    (file.take q (.ok planned)).Tells st := by
  obtain ⟨n, counts, inFlight⟩ := h.counts
  refine ⟨h.review, ⟨n, counts, ?_⟩, h.alone, ?_, ?_, h.asked_take warrant planned⟩
  · rw [exactSum_take, none, UInt32.toNat_zero, ite_self, found_take, resource_take]
    exact inFlight
  · intro p
    rw [inFlightWith_take, none, ite_self, UInt32.add_zero, h.planned]
  · intro slot
    rw [left?_take, none, UInt32.toNat_zero, h.limits]
    simp

/-- The review counts the capacity that it plans as its dossier does. -/
theorem Tells.take_planned (h : file.Tells st) {q : Request} (warrant : st.Warrants q)
    (planned : List PlannedCapacity) : (file.take q (.ok planned)).Tells
      (st.recordPlanned q.resource q.provider.id planned).2 := by
  have own : q.resource = file.resource := warrant.resource_eq h.alone
  obtain ⟨n, counts, inFlight⟩ := h.counts
  refine ⟨(ReviewState.review_recordPlanned ..).trans h.review,
    ⟨n.satAdd (PlannedCapacity.totalUnits planned), ?_, ?_⟩, ?_, ?_, ?_,
    h.asked_take warrant planned⟩
  · show (ReviewState.recordPlanned ..).2.counts? file.resource = _
    rw [ReviewState.counts?_recordPlanned, if_pos own.symm, own, counts]
    rfl
  · rw [exactSum_take, Count.toNat_satAdd, inFlight, if_pos (by simpa using own), found_take,
      resource_take]
    omega
  · intro r other
    rw [ReviewState.counts?_recordPlanned, if_neg (own ▸ other)]
    exact h.alone r other
  · intro p
    rw [ReviewState.plannedFor_recordPlanned, inFlightWith_take, h.planned]
  · intro slot
    rw [ReviewState.budget_recordPlanned, left?_take, ← h.limits]
    simp only [Budget.consume, Table.find?_insert, Table.findD]
    by_cases same : slot = ⟨q.provider.id, q.resource⟩
    · obtain ⟨left, budget, -⟩ := warrant.allowed
      rw [if_pos same, if_pos same, same, budget]
      simp [Count.toNat_satSub]
    · rw [if_neg same, if_neg same]
      simp only [Nat.sub_zero, Option.map_id']

/-- The review takes an answer in as its dossier does. -/
theorem Tells.take [Limiter L] {w : Wiring} {q : Request} {a : Answer} {s s' : Site L}
    {st' : ReviewState} (h : file.Tells st) (warrant : st.Warrants q)
    (accepted : Engine.accept w q a s st = (s', st')) : (file.take q a).Tells st' := by
  cases a with
  | error e =>
    cases accepted
    exact h
  | ok planned =>
    obtain ⟨-, ⟨none, -, rfl⟩ | ⟨-, -, rfl⟩⟩ := Engine.accept_stock accepted
    · exact h.take_zero warrant none
    · exact h.take_planned warrant planned

end Dossier

/-! ## Pleas cover requests -/

namespace Plea

variable {pleas : List Plea} {calls : List Call}

/-- Calls that ask for headroom need no plea. -/
theorem Cover.grow (covered : Cover pleas calls) {calls' new : List Call}
    (grown : calls' = calls ++ new)
    (asks : ∀ call ∈ new, ∃ n answer, call.question = .headroom n answer) :
    Cover pleas calls' := by
  intro i call units found requests
  subst grown
  by_cases early : i < calls.length
  · rw [List.getElem?_append_left early] at found
    rw [List.take_append_of_le_length (Nat.le_of_lt early)]
    exact covered i call units found requests
  · rw [List.getElem?_append_right (Nat.not_lt.1 early)] at found
    obtain ⟨n, answer, headroom⟩ := asks call (List.mem_of_getElem? found)
    cases headroom.symm.trans requests

/-- A request is covered by the plea that is entered with it. -/
theorem Cover.concat (plea : Plea) (covered : Cover pleas plea.before) :
    Cover (pleas ++ [plea]) (plea.before ++ [plea.call]) := by
  intro i call units found requests
  by_cases early : i < plea.before.length
  · rw [List.getElem?_append_left early] at found
    rw [List.take_append_of_le_length (Nat.le_of_lt early)]
    obtain ⟨old, mem, own⟩ := covered i call units found requests
    exact ⟨old, List.mem_append_left _ mem, own⟩
  · have last : i = plea.before.length := by
      have bound := (List.getElem?_eq_some_iff.1 found).1
      simp only [List.length_append, List.length_singleton] at bound
      omega
    subst last
    rw [List.getElem?_concat_length] at found
    refine ⟨plea, by simp, Option.some.inj found, ?_⟩
    rw [List.take_left']
    rfl

end Plea

variable [Limiter L] {w : Wiring} {b : Behaviour} {c : Chain L} {gives : Answering} {terms : Terms}

/-! ## What one step keeps -/

/-- Every stride of plain engines can be noted. -/
theorem Stride.noted (plain : c.Plain) {s : Site L} {st : ReviewState} {y : Site L × ReviewState}
    (stride : Stride w b c gives (s, st) y) (file : Dossier) :
    ∃ file' pleas, Noted w b c gives s st file y file' pleas := by
  cases stride with
  | headroom he admits => exact ⟨_, _, .headroom he admits⟩
  | limit slot _ => exact ⟨_, _, .limit slot⟩
  | request he admits prompts => exact ⟨_, _, .request he admits prompts⟩
  | accept warrants given => exact ⟨_, _, .accept warrants given⟩
  | custom mem => exact absurd mem (plain _ _ _)
  | report e => exact ⟨_, _, .report e⟩

namespace Noted

variable {s : Site L} {st : ReviewState} {file file' : Dossier} {y : Site L × ReviewState}
  {pleas : List Plea}

theorem tells (noted : Noted w b c gives s st file y file' pleas) (h : file.Tells st) :
    file'.Tells y.2 := by
  cases noted with
  | headroom _ _ | request _ _ _ | report _ => exact h
  | limit slot => exact h.look slot _
  | accept warrants _ => exact h.take warrants rfl

/-- A request that goes out is justified by what the review knows. -/
theorem justified (noted : Noted w b c gives s st file y file' pleas) (h : file.Tells st) :
    ∀ plea ∈ pleas, plea.Justified b c := by
  cases noted with
  | @request e q he admits prompts =>
    intro plea mem
    obtain rfl := List.mem_singleton.1 mem
    have own : q.resource = file.resource := prompts.resource_eq h.alone
    obtain ⟨left, budget, enough⟩ := prompts.allowed
    refine ⟨⟨e, he, admits⟩, own, ?_, ?_, ?_, left.toNat, ?_, enough⟩
    · exact h.review ▸ h.planned q.provider.id ▸ prompts.confirmed
    · exact Nat.pos_of_ne_zero fun zero => prompts.positive (UInt32.toNat_inj.1 zero)
    · have needed : q.units.toNat ≤ (st.unsatisfied q.resource).toNat := prompts.needed
      rwa [own, h.uncovered_eq] at needed
    · show file.left? _ = _
      rw [← h.limits, budget]
      rfl
  | headroom _ _ | limit _ | accept _ _ | report _ => nofun

theorem covers (noted : Noted w b c gives s st file y file' pleas) (h : file.Tells st)
    {before : List Plea} (covered : Plea.Cover before s.calls) :
    Plea.Cover (before ++ pleas) y.1.calls := by
  cases noted with
  | headroom _ _ =>
    rw [List.append_nil]
    exact covered.grow rfl (by simp)
  | limit slot =>
    rw [List.append_nil]
    exact covered
  | @request e q _ _ _ =>
    have entered := covered.concat ⟨file, q, s.calls⟩
    rw [Plea.call, ← h.review] at entered
    exact entered
  | @accept q a _ _ =>
    obtain ⟨_, _, _, _, _, same⟩ := Engine.accept_frame w q a s st
    rw [List.append_nil, same]
    exact covered
  | report e =>
    obtain ⟨_, same⟩ := Site.emit_frame w e s
    rw [List.append_nil, same]
    exact covered

end Noted

namespace Docket

/-- Each review under way has a dossier that tells its state. -/
def Told (underway : Table ResourceClass ReviewState) (files : Table ResourceClass Dossier) :
    Prop :=
  ∀ r st, underway.find? r = some st → ∃ file, files.find? r = some file ∧ file.Tells st

theorem Told.insert {underway : Table ResourceClass ReviewState}
    {files : Table ResourceClass Dossier} (h : Told underway files) (r : ResourceClass)
    {st : ReviewState} {file : Dossier} (tells : file.Tells st) :
    Told (underway.insert r st) (files.insert r file) := by
  intro r' st' found
  rw [Table.find?_insert]
  rcases Table.find?_insert_cases found with ⟨rfl, rfl⟩ | ⟨other, old⟩
  · rw [if_pos rfl]
    exact ⟨file, rfl, tells⟩
  · rw [if_neg other]
    exact h r' st' old

theorem Told.erase {underway : Table ResourceClass ReviewState}
    {files : Table ResourceClass Dossier} (h : Told underway files) (r : ResourceClass) :
    Told (underway.erase r) (files.erase r) := by
  intro r' st' found
  obtain ⟨other, old⟩ := Table.find?_of_erase found
  rw [Table.find?_erase, if_neg other]
  exact h r' st' old

/-- The dossiers tell the states, and pleas that are justified cover all requests. -/
structure InOrder (b : Behaviour) (c : Chain L) (d : Docket L) : Prop where
  told : Told d.stage.underway d.files
  justified : ∀ plea ∈ d.pleas, plea.Justified b c
  covered : Plea.Cover d.pleas d.stage.site.calls

theorem Step.inOrder {d d' : Docket L} (step : Step w b c terms d d') (h : d.InOrder b c) :
    d'.InOrder b c := by
  cases step with
  | @move m _ =>
    obtain ⟨new, grown, asks⟩ := m.calls_eq (w := w) (b := b) d.stage.site
    exact ⟨h.told, h.justified, h.covered.grow grown fun call mem => (asks call mem).2⟩
  | receive _ => exact ⟨h.told, h.justified, h.covered⟩
  | @begin r _ =>
    exact ⟨h.told.insert r (Dossier.tells_captured r _), h.justified, h.covered⟩
  | @stride r st file s st' file' pleas found filed noted =>
    obtain ⟨known, here, tells⟩ := h.told r st found
    cases filed.symm.trans here
    refine ⟨h.told.insert r (noted.tells tells), ?_, noted.covers tells h.covered⟩
    intro plea mem
    exact (List.mem_append.1 mem).elim (h.justified plea) (noted.justified tells plea)
  | @conclude r st t _ =>
    refine ⟨h.told.erase r, h.justified, ?_⟩
    obtain ⟨_, same⟩ := Cycle.conclude_frame w r d.stage.site st t
    rw [same]
    exact h.covered

theorem Steps.inOrder {d d' : Docket L} (steps : Steps w b c terms d d') (h : d.InOrder b c) :
    d'.InOrder b c := by
  induction steps with
  | refl => exact h
  | tail _ step ih => exact step.inOrder ih

/-- A docket can follow every step of the stage. -/
theorem InOrder.follow {d : Docket L} (h : d.InOrder b c) (plain : c.Plain) {f : Stage L}
    (step : Stage.Step w b c terms d.stage f) : ∃ d', Step w b c terms d d' ∧ d'.stage = f := by
  cases step with
  | move allowed => exact ⟨_, .move allowed, rfl⟩
  | receive received => exact ⟨_, .receive received, rfl⟩
  | begin first => exact ⟨_, .begin first, rfl⟩
  | stride found stride =>
    obtain ⟨file, filed, -⟩ := h.told _ _ found
    obtain ⟨file', pleas, noted⟩ := stride.noted plain file
    exact ⟨_, .stride found filed noted, rfl⟩
  | conclude found => exact ⟨_, .conclude found, rfl⟩

/-- The docket of a site on which nothing has happened. -/
def empty (limiter : L) (line : RequestLine) : Docket L :=
  { stage := { site := { limiter, line } } }

end Docket

/-! ## Runs -/

end Muster
