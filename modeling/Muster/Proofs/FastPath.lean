import Muster.Proofs.Run
import Muster.Proofs.Visits

/-!
# The fast path

When an item becomes ready, the trigger looks for one provider that could help and asks for a review
at once; without one, the item is left to the next periodic review. Whether a provider could help is
decided twice, by the trigger and by the engine of the review. The trigger asks with no units
planned and stops at the first provider that has headroom; the engine asks with the units that are
planned by then and goes on while demand is left. Both leave out providers that do not serve the
class, that the filter refuses, that have no headroom and that cannot say.

The trigger loses nothing: after it has found nobody, an engine with the same providers and filter
makes no request for the class, if providers that have headroom at all have it with no units
planned.

**Main statement.** `Site.fast_path_exact`: both directions.
-/

namespace Muster

variable {L : Type}

/-! ## Questions on behalf of an item -/

namespace Behaviour

variable (b : Behaviour) (filter : Filter) (r : ResourceClass)

/-- The question to a provider on behalf of a ready item. -/
def inquiry (calls : List Call) (p : Provider) : Call :=
  ⟨none, p.id, r, .headroom 0 (b.headroom calls p r 0)⟩

/-- The questions to all providers that may be asked, one after the other. -/
def inquiries : List Call → Registry → List Call
  | _, [] => []
  | calls, p :: rest =>
    if p.serves r && filter p r then
      b.inquiry r calls p :: inquiries (calls ++ [b.inquiry r calls p]) rest
    else inquiries calls rest

/-- One of the providers says that it has headroom, after those before it have been asked. -/
def Welcomes (calls : List Call) (ps : Registry) : Prop :=
  ∃ before p after, ps = before ++ p :: after ∧ (p.serves r && filter p r) = true ∧
    b.headroom (calls ++ b.inquiries filter r calls before) p r 0 = .ok true

/-- Providers that have headroom for the class had it before, with no units planned. -/
def Reveals (ps : Registry) : Prop :=
  ∀ p ∈ ps, ∀ calls more n, b.headroom (calls ++ more) p r n = .ok true →
    b.headroom calls p r 0 = .ok true

variable {b filter r}

theorem inquiries_append (calls : List Call) (ps qs : Registry) :
    b.inquiries filter r calls (ps ++ qs) = b.inquiries filter r calls ps ++
      b.inquiries filter r (calls ++ b.inquiries filter r calls ps) qs := by
  induction ps generalizing calls with
  | nil => rw [List.nil_append, inquiries, List.nil_append, List.append_nil]
  | cons p ps ih =>
    rw [List.cons_append, inquiries, inquiries]
    split
    · rw [ih, List.append_assoc, List.singleton_append, List.cons_append]
    · exact ih calls

theorem welcomes_cons {calls : List Call} {p : Provider} {rest : Registry} :
    b.Welcomes filter r calls (p :: rest) ↔
      if p.serves r && filter p r then
        b.headroom calls p r 0 = .ok true ∨
          b.Welcomes filter r (calls ++ [b.inquiry r calls p]) rest
      else b.Welcomes filter r calls rest := by
  constructor
  · rintro ⟨before, q, after, split, may, yes⟩
    cases before with
    | nil =>
      cases split
      rw [inquiries, List.append_nil] at yes
      rw [if_pos may]
      exact .inl yes
    | cons _ before =>
      cases split
      rw [inquiries] at yes
      split
      · rename_i admits
        rw [if_pos admits, List.append_cons] at yes
        exact .inr ⟨before, q, after, rfl, may, yes⟩
      · rename_i admits
        rw [if_neg admits] at yes
        exact ⟨before, q, after, rfl, may, yes⟩
  · intro h
    by_cases admits : (p.serves r && filter p r) = true
    · rw [if_pos admits] at h
      rcases h with yes | ⟨before, q, after, rfl, may, yes⟩
      · refine ⟨[], p, rest, rfl, admits, ?_⟩
        rwa [inquiries, List.append_nil]
      · refine ⟨p :: before, q, after, rfl, may, ?_⟩
        rwa [inquiries, if_pos admits, List.append_cons]
    · rw [if_neg admits] at h
      obtain ⟨before, q, after, rfl, may, yes⟩ := h
      refine ⟨p :: before, q, after, rfl, may, ?_⟩
      rwa [inquiries, if_neg admits]

/-- Providers whose answers do not depend on what was asked before. -/
theorem welcomes_iff {calls : List Call} {ps : Registry}
    (steady : ∀ p ∈ ps, ∀ more, b.headroom (calls ++ more) p r 0 = b.headroom calls p r 0) :
    b.Welcomes filter r calls ps ↔
      ∃ p ∈ ps, (p.serves r && filter p r) = true ∧ b.headroom calls p r 0 = .ok true := by
  constructor
  · rintro ⟨before, p, after, rfl, admits, yes⟩
    have mem : p ∈ before ++ p :: after := List.mem_append_right _ List.mem_cons_self
    rw [steady p mem] at yes
    exact ⟨p, mem, admits, yes⟩
  · rintro ⟨p, mem, admits, yes⟩
    obtain ⟨before, after, rfl⟩ := List.append_of_mem mem
    refine ⟨before, p, after, rfl, admits, ?_⟩
    rw [steady p mem]
    exact yes

end Behaviour

namespace Site

variable {w : Wiring} {b : Behaviour}

/-- The site once these providers were asked on behalf of an item. -/
def inquired (b : Behaviour) (filter : Filter) (r : ResourceClass) (ps : Registry) (s : Site L) :
    Site L :=
  { s with calls := s.calls ++ b.inquiries filter r s.calls ps }

variable {filter : Filter} {r : ResourceClass} {p : Provider}

theorem inquired_nil (s : Site L) : s.inquired b filter r [] = s := by
  rw [inquired, Behaviour.inquiries, List.append_nil]

theorem inquired_cons (admits : (p.serves r && filter p r) = true) (ps : Registry) (s : Site L) :
    s.inquired b filter r (p :: ps) = (s.inquired b filter r [p]).inquired b filter r ps := by
  simp only [inquired, Behaviour.inquiries, if_pos admits, List.append_assoc, List.singleton_append]

theorem inquired_cons_of_not (admits : ¬ (p.serves r && filter p r) = true) (ps : Registry)
    (s : Site L) : s.inquired b filter r (p :: ps) = s.inquired b filter r ps := by
  simp only [inquired, Behaviour.inquiries, if_neg admits]

/-- A trigger turns to the providers one after the other. -/
theorem announceTo_cons (filter : Filter) (item : WorkItem) (p : Provider) (rest : Registry)
    (s : Site L) : s.announceTo w b filter item (p :: rest) =
      if p.serves item.resource && filter p item.resource then
        if b.headroom s.calls p item.resource 0 = .ok true then
          Prod.map .requested id ((s.inquired b filter item.resource [p]).request w item.resource
            .fastPath (some item.id))
        else (s.inquired b filter item.resource [p]).announceTo w b filter item rest
      else s.announceTo w b filter item rest := by
  rw [announceTo]
  by_cases admits : (p.serves item.resource && filter p item.resource) = true
  · have asked : s.askHeadroom b none p item.resource 0 =
        (b.headroom s.calls p item.resource 0, s.inquired b filter item.resource [p]) := by
      simp only [inquired, Behaviour.inquiries, if_pos admits]
      rfl
    rw [if_pos admits, if_pos admits, asked]
    rcases b.headroom s.calls p item.resource 0 with error | yes
    · rfl
    · cases yes <;> rfl
  · rw [if_neg admits, if_neg admits]

/-- The trigger asks for one review, as soon as a provider has headroom, or for none. -/
theorem announceTo_cases (filter : Filter) (item : WorkItem) (ps : Registry) (s : Site L) :
    (b.Welcomes filter item.resource s.calls ps ∧ ∃ before p after, ps = before ++ p :: after ∧
      s.announceTo w b filter item ps = Prod.map .requested id
        ((s.inquired b filter item.resource (before ++ [p])).request w item.resource .fastPath
          (some item.id))) ∨
    (¬ b.Welcomes filter item.resource s.calls ps ∧
      s.announceTo w b filter item ps =
        (.noEligibleProvider, s.inquired b filter item.resource ps)) := by
  induction ps generalizing s with
  | nil =>
    refine .inr ⟨?_, by rw [announceTo, inquired_nil]⟩
    rintro ⟨before, p, after, split, -⟩
    cases before <;> cases split
  | cons p rest ih =>
    rw [announceTo_cons, Behaviour.welcomes_cons]
    by_cases admits : (p.serves item.resource && filter p item.resource) = true
    · rw [if_pos admits, if_pos admits, inquired_cons admits rest]
      by_cases yes : b.headroom s.calls p item.resource 0 = .ok true
      · rw [if_pos yes]
        exact .inl ⟨.inl yes, [], p, rest, rfl, rfl⟩
      · rw [if_neg yes]
        have calls : (s.inquired b filter item.resource [p]).calls =
            s.calls ++ [b.inquiry item.resource s.calls p] := by
          simp only [inquired, Behaviour.inquiries, if_pos admits]
        rw [← calls]
        rcases ih (s.inquired b filter item.resource [p]) with
          ⟨welcome, before, q, after, rfl, announced⟩ | ⟨refused, announced⟩
        · refine .inl ⟨.inr welcome, p :: before, q, after, rfl, ?_⟩
          rw [announced, List.cons_append, inquired_cons admits (before ++ [q])]
        · exact .inr ⟨fun h => h.elim yes refused, announced⟩
    · rw [if_neg admits, if_neg admits, inquired_cons_of_not admits rest]
      rcases ih s with ⟨welcome, before, q, after, rfl, announced⟩ | refused
      · refine .inl ⟨welcome, p :: before, q, after, rfl, ?_⟩
        rw [announced, List.cons_append, inquired_cons_of_not admits]
      · exact .inr refused

end Site

/-- Where the trigger has found nobody, the engine finds nobody either. -/
theorem Visit.not_eligible {e : Engine} {b : Behaviour} {v : Visit L} {calls : List Call}
    (reveals : b.Reveals v.resource e.providers)
    (refused : ¬ b.Welcomes e.filter v.resource calls e.providers)
    (listed : v.provider ∈ e.providers)
    (later : calls ++ b.inquiries e.filter v.resource calls e.providers <+: v.site.calls) :
    v.eligible e b = false := by
  refine Bool.eq_false_iff.2 fun may => refused ?_
  obtain ⟨admits, yes⟩ := Visit.eligible_iff.1 may
  obtain ⟨before, after, split⟩ := List.append_of_mem listed
  refine ⟨before, v.provider, after, split, admits, ?_⟩
  obtain ⟨more, grown⟩ := later
  rw [split, Behaviour.inquiries_append, ← List.append_assoc, List.append_assoc] at grown
  rw [Visit.headroom, ← grown] at yes
  exact reveals v.provider listed _ _ _ yes

variable [Limiter L]

namespace Site

/-- When an item becomes ready, the trigger asks for one review of its class if one of the providers
says that it has headroom, wherever it stands among others that do not serve the class, that are
refused, that have none and that cannot say; and it asks for none and changes nothing if there is no
such provider. In that case an engine with the same providers and filter that works later, for
whatever review, only asks for headroom for the class. -/
theorem fast_path_exact {w : Wiring} {b : Behaviour} {t : Trigger} (on : t.enabled = true)
    (item : WorkItem) (s : Site L) :
    (b.Welcomes t.filter item.resource s.calls t.providers →
      ∃ before p after, t.providers = before ++ p :: after ∧
        s.announce w b t item = Prod.map .requested id
          ((s.inquired b t.filter item.resource (before ++ [p])).request w item.resource .fastPath
            (some item.id))) ∧
    (¬ b.Welcomes t.filter item.resource s.calls t.providers →
      s.announce w b t item =
        (.noEligibleProvider, s.inquired b t.filter item.resource t.providers)) ∧
    ∀ (e : Engine) (s' : Site L) (st : ReviewState) (own : List Call) (g : Progress L),
      e.providers = t.providers → e.filter = t.filter → b.Reveals item.resource e.providers →
      (s.announce w b t item).1 = .noEligibleProvider →
      (s.announce w b t item).2.calls <+: s'.calls →
      e.Works w b (fun _ _ => True) s' (e.start w b s' st) own g →
      ∀ call ∈ own, call.resource = item.resource →
        ∃ n answer, call.question = .headroom n answer := by
  have announced : s.announce w b t item = s.announceTo w b t.filter item t.providers := by
    rw [announce, if_pos on]
  have cases := announceTo_cases (w := w) (b := b) t.filter item t.providers s
  rw [← announced] at cases
  refine ⟨?_, ?_, ?_⟩
  · intro welcome
    exact (cases.resolve_right fun h => h.1 welcome).2
  · intro refused
    exact (cases.resolve_left fun h => refused h.1).2
  · intro e s' st own g providers filter reveals nobody later works call mem own
    rcases cases with ⟨-, _, _, _, -, requested⟩ | ⟨refused, same⟩
    · rw [requested] at nobody
      cases nobody
    rw [← providers, ← filter] at refused same
    rw [same] at later
    obtain ⟨visits, toured, rfl⟩ :=
      works.toured b.gives_any (Engine.start_extends b.gives_any s' st)
    obtain ⟨v, visited, mem⟩ := List.mem_flatMap.1 mem
    obtain ⟨before, after, split⟩ := List.append_of_mem visited
    obtain ⟨left, tour, -⟩ := toured.turn split
    have listed : v.provider ∈ e.providers := Engine.listed_of_route (toured.listed visited)
    have same' : item.resource = v.resource := own.symm.trans (Visit.resource_of_mem mem)
    rw [same'] at refused later reveals
    have no := v.not_eligible reveals refused listed (later.trans tour.calls)
    rw [Visit.calls_of_not_eligible no] at mem
    exact Visit.question_of_mem mem

end Site

/-! ## Providers of no help -/

namespace Sample

/-- The third provider cannot say whether it has headroom, and only the fifth one has any. -/
def moody : Behaviour where
  headroom _ p _ n :=
    if p.id = .ofNat 3 then .error (.query "") else .ok (decide (p.id = .ofNat 5 ∧ n < 3))
  respond _ _ _ := none

/-- The first provider serves nothing and the second one is left out. -/
def helpless : Trigger where
  enabled := true
  providers := [{ provider 1 with serves := fun _ => false }, provider 2, provider 3, provider 4]
  filter p _ := p.id != .ofNat 2

def helpful : Trigger := { helpless with providers := helpless.providers ++ [provider 5] }

/-- An engine that shares the first trigger's providers and filter. -/
def hopeless : Engine := { providers := helpless.providers, filter := helpless.filter }

/-- The ready item waits. -/
def wanting : ReviewState where
  review := .fresh 0
  classes := (∅ : Table ResourceClass ClassDemand).insert .unlabeled ⟨[], ⟨1, 0, 0⟩⟩

theorem moody_reveals (ps : Registry) : moody.Reveals .unlabeled ps := by
  intro p _ calls more n yes
  simp only [moody] at yes ⊢
  by_cases third : p.id = .ofNat 3
  · rw [if_pos third] at yes
    cases yes
  · rw [if_neg third] at yes ⊢
    have both := of_decide_eq_true (Except.ok.inj yes)
    have still : p.id = .ofNat 5 ∧ (0 : Count) < 3 := ⟨both.1, by decide⟩
    exact congrArg Except.ok (decide_eq_true still)

end Sample

/-- Four providers are of no help: no review is requested, and two of them are asked for headroom in
vain. With a fifth one that has headroom, a review is requested. -/
theorem announced_of_sample :
    (∃ s outcome, Sample.start.site.announce Sample.wiring Sample.moody Sample.helpful
      (Sample.item 1) = (.requested outcome, s)) ∧
    (Sample.start.site.announce Sample.wiring Sample.moody Sample.helpless (Sample.item 1)).1 =
      .noEligibleProvider ∧
    ∃ (s : Site StaticLimiter) (own : List Call) (g : Progress StaticLimiter),
      Sample.hopeless.Works Sample.wiring Sample.moody (fun _ _ => True) s
        (Sample.hopeless.start Sample.wiring Sample.moody s Sample.wanting) own g ∧
      own.length = 2 ∧ ∀ call ∈ own, ∃ n answer, call.question = .headroom n answer := by
  have first := Site.fast_path_exact (w := Sample.wiring) (b := Sample.moody)
    (t := Sample.helpful) rfl (Sample.item 1) Sample.start.site
  have second := Site.fast_path_exact (w := Sample.wiring) (b := Sample.moody)
    (t := Sample.helpless) rfl (Sample.item 1) Sample.start.site
  have welcome : Sample.moody.Welcomes Sample.helpful.filter .unlabeled []
      Sample.helpful.providers :=
    ⟨Sample.helpless.providers, Sample.provider 5, [], rfl, by decide, rfl⟩
  have refused : ¬ Sample.moody.Welcomes Sample.helpless.filter .unlabeled []
      Sample.helpless.providers := by
    rw [Behaviour.welcomes_iff fun _ _ _ => rfl]
    decide
  obtain ⟨before, p, after, -, announced⟩ := first.1 welcome
  have nobody := second.2.1 refused
  let s := (Sample.start.site.announce Sample.wiring Sample.moody Sample.helpless (Sample.item 1)).2
  obtain ⟨own, calls, two, resources⟩ : ∃ own : List Call,
      (Sample.hopeless.start Sample.wiring Sample.moody s Sample.wanting).site.calls =
        s.calls ++ own ∧ own.length = 2 ∧ ∀ call ∈ own, call.resource = .unlabeled :=
    ⟨_, rfl, rfl, by decide⟩
  refine ⟨⟨_, _, announced⟩, congrArg Prod.fst nobody, s, own, _, .start calls, two, ?_⟩
  intro call mem
  exact second.2.2 Sample.hopeless s Sample.wanting own _ rfl rfl (Sample.moody_reveals _)
    (congrArg Prod.fst nobody) (List.prefix_refl _) (.start calls) call mem (resources call mem)

end Muster
