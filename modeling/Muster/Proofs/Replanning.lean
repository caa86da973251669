import Muster.Proofs.FirstFit
import Muster.Proofs.Lockstep

/-!
# Planning again

An engine that has planned a review finds nothing left to do when it plans the same review again.
Between the two passes the limiter has changed and more units are planned with each provider, so
this is not the same computation made twice. What carries over is that every stop of the first pass
is `Spent`: either the class is covered, or the provider may not be asked from now on, or nothing is
left of its limit. A visit that leaves its class uncovered has used up the limit, since the request
was for less than what was missing; and later visits only lower the demand, raise the units planned
with providers and count limits down.

Providers that change their minds could undo this. They are assumed to wane (`Behaviour.Wanes`): who
has headroom had it before, with fewer units planned.

**Main statement.** `Engine.start_again`.
-/

namespace Muster

variable {L : Type}

/-! ## What is assumed -/

/-- Providers that have headroom had it before, with fewer units planned. -/
def Behaviour.Wanes (b : Behaviour) (ps : Registry) : Prop :=
  ∀ p ∈ ps, ∀ r calls more n m, n ≤ m → b.headroom (calls ++ more) p r m = .ok true →
    b.headroom calls p r n = .ok true

/-- Providers that go by the planned units only, and have headroom with fewer units if they have it
with more. -/
theorem Behaviour.wanes_of_steady {b : Behaviour} {ps : Registry}
    (steady : ∀ p ∈ ps, ∀ r calls n, b.headroom calls p r n = b.headroom [] p r n)
    (fewer : ∀ p ∈ ps, ∀ r n m, n ≤ m → b.headroom [] p r m = .ok true →
      b.headroom [] p r n = .ok true) : b.Wanes ps := by
  intro p mem r calls more n m le yes
  rw [steady p mem] at yes ⊢
  exact fewer p mem r n m le yes

/-- A class with uncovered demand is under review. -/
theorem ReviewState.mem_keys {st : ReviewState} {r : ResourceClass}
    (missing : st.unsatisfied r ≠ 0) : r ∈ st.classes.keys := by
  refine Table.contains_iff.1 ?_
  rw [unsatisfied] at missing
  rw [Table.contains]
  cases found : st.classes.find? r with
  | none =>
    rw [found] at missing
    exact absurd rfl missing
  | some d => rfl

variable [Limiter L]

/-! ## Units that were asked for -/

/-- The units that a provider was asked for. -/
def Call.unitsAsked (calls : List Call) (p : ProviderId) : Nat :=
  Count.exactSum ((SimulatedProvider.requests calls p).map Prod.snd)

theorem Call.unitsAsked_append (calls calls' : List Call) (p : ProviderId) :
    unitsAsked (calls ++ calls') p = unitsAsked calls p + unitsAsked calls' p := by
  rw [unitsAsked, SimulatedProvider.requests, List.filterMap_append, List.map_append,
    Count.exactSum_append]
  rfl

theorem Visit.unitsAsked_calls (e : Engine) (b : Behaviour) (v : Visit L) (p : ProviderId) :
    Call.unitsAsked (v.calls e b) p =
      if p = v.provider.id then (v.units e b).toNat else 0 := by
  rw [Call.unitsAsked, requests_eq]
  by_cases own : p = v.provider.id
  · subst own
    by_cases idle : v.units e b = 0
    · rw [if_neg fun h => h.2 idle, if_pos rfl, idle]
      rfl
    · rw [if_pos ⟨rfl, idle⟩, if_pos rfl]
      rfl
  · rw [if_neg fun h => own h.1.symm, if_neg own]
    rfl

namespace Engine

variable {e : Engine} {w : Wiring} {b : Behaviour} {stops : List (ResourceClass × Provider)}
  {x y : Site L × ReviewState} {visits : List (Visit L)} {left : List (ResourceClass × Provider)}

/-- As long as it fits, a provider has as many units more as it was asked for. -/
theorem Tours.plannedFor_eq (tour : e.Tours w b Answer.Exact stops x visits left y)
    (p : ProviderId)
    (fits : (x.2.plannedFor p).toNat + Call.unitsAsked (visits.flatMap (·.calls e b)) p <
      4294967296) :
    (y.2.plannedFor p).toNat =
      (x.2.plannedFor p).toNat + Call.unitsAsked (visits.flatMap (·.calls e b)) p := by
  induction tour with
  | start => rfl
  | pass _ _ ih => exact ih fits
  | @visit visits v left y tour missing leads ih =>
    rw [List.flatMap_append, List.flatMap_singleton, Call.unitsAsked_append,
      Visit.unitsAsked_calls] at fits ⊢
    have before : (v.state.plannedFor p).toNat = _ := ih (by omega)
    have after := congrArg UInt32.toNat (leads.plannedFor p)
    rw [leads.delivered_eq fun _ said => leads.given said, UInt32.toNat_add] at after
    by_cases own : p = v.provider.id
    · rw [if_pos own] at after fits ⊢
      omega
    · have zero : (0 : Count).toNat = 0 := rfl
      rw [if_neg own] at after fits ⊢
      omega

/-- As long as its class is not covered, the limit of a provider that may still be asked leaves
nothing. -/
def Spent (e : Engine) (b : Behaviour) (calls : List Call) (st : ReviewState)
    (stop : ResourceClass × Provider) : Prop :=
  st.unsatisfied stop.1 ≠ 0 → (stop.2.serves stop.1 && e.filter stop.2 stop.1) = true →
    ∀ more n, st.plannedFor stop.2.id ≤ n →
      b.headroom (calls ++ more) stop.2 stop.1 n = .ok true →
      st.budget.remaining.find? ⟨stop.2.id, stop.1⟩ = some 0

theorem Spent.later {calls : List Call} {st : ReviewState} {stop : ResourceClass × Provider}
    (spent : e.Spent b calls st stop) (new : List Call) : e.Spent b (calls ++ new) st stop := by
  intro missing admits more n le yes
  rw [List.append_assoc] at yes
  exact spent missing admits (new ++ more) n le yes

/-- Whoever was visited has nothing left, or was asked for all that was missing. -/
theorem spent_visited (wanes : b.Wanes e.providers) {v : Visit L}
    (listed : v.provider ∈ e.providers) (leads : v.Leads e b w Answer.Exact y)
    (grows : v.state.plannedFor v.provider.id ≤ y.2.plannedFor v.provider.id) :
    e.Spent b y.1.calls y.2 v.stop := by
  intro missing admits more n le yes
  obtain ⟨new, calls⟩ := leads.calls
  have may : v.eligible e b = true := by
    refine Visit.eligible_iff.2 ⟨admits, ?_⟩
    rw [← calls, Visit.called, List.append_assoc, List.append_assoc] at yes
    exact wanes v.provider listed v.resource _ _ _ n (UInt32.le_trans grows le) yes
  have delivered : v.delivered = min (v.state.unsatisfied v.resource) v.remaining := by
    rw [leads.delivered_eq fun _ said => leads.given said, Visit.units, if_pos may]
  have covered := leads.unsatisfied v.resource
  have least := Count.toNat_min (v.state.unsatisfied v.resource) v.remaining
  have missing : (y.2.unsatisfied v.resource).toNat ≠ 0 := fun h => missing (UInt32.toNat_inj.1 h)
  rw [if_pos rfl, delivered, least] at covered
  have kept : y.2.budget.remaining.find? v.slot = _ := leads.left may
  refine kept.trans (congrArg some (UInt32.toNat_inj.1 ?_))
  rw [Count.toNat_satSub, delivered, least]
  have zero : (0 : Count).toNat = 0 := rfl
  omega

/-- Visits to others leave it so. -/
theorem Spent.kept {v : Visit L} {stop : ResourceClass × Provider}
    (spent : e.Spent b v.site.calls v.state stop) (leads : v.Leads e b w Answer.Exact y)
    (grows : v.state.plannedFor stop.2.id ≤ y.2.plannedFor stop.2.id) :
    e.Spent b y.1.calls y.2 stop := by
  intro missing admits more n le yes
  obtain ⟨new, calls⟩ := leads.calls
  have before : v.state.unsatisfied stop.1 ≠ 0 := by
    intro covered
    have after := leads.unsatisfied stop.1
    rw [covered] at after
    exact missing (UInt32.toNat_inj.1 (after.trans (Nat.zero_sub _)))
  have none : v.state.budget.remaining.find? ⟨stop.2.id, stop.1⟩ = some 0 := by
    rw [← calls, Visit.called, List.append_assoc, List.append_assoc] at yes
    exact spent before admits _ n (UInt32.le_trans grows le) yes
  by_cases again : v.eligible e b = true ∧ (⟨stop.2.id, stop.1⟩ : Slot) = v.slot
  · obtain ⟨may, same⟩ := again
    rw [same] at none ⊢
    have left : v.remaining = 0 := by
      rw [Visit.remaining, ReviewState.fst_remainingLimit, none]
      rfl
    rw [leads.left may, left]
    refine congrArg some (UInt32.toNat_inj.1 ?_)
    rw [Count.toNat_satSub]
    exact Nat.zero_sub _
  · rw [leads.budget fun may same => again ⟨may, same⟩, none]

/-- Stops that are behind an engine are spent. -/
theorem Tours.spent (wanes : b.Wanes e.providers)
    (tour : e.Tours w b Answer.Exact stops x visits left y)
    (listed : ∀ stop ∈ stops, stop.2 ∈ e.providers)
    (fits : ∀ p ∈ e.providers, (x.2.plannedFor p.id).toNat +
      Call.unitsAsked (visits.flatMap (·.calls e b)) p.id < 4294967296) :
    ∀ stop ∈ stops, stop ∈ left ∨ e.Spent b y.1.calls y.2 stop := by
  induction tour with
  | start => exact fun stop mem => .inl mem
  | @pass visits r p left s st tour covered ih =>
    intro stop mem
    rcases ih fits stop mem with next | spent
    · rcases List.mem_cons.1 next with rfl | next
      · exact .inr fun missing => absurd covered missing
      · exact .inl next
    · exact .inr spent
  | @visit visits v left y tour missing leads ih =>
    have before : ∀ p ∈ e.providers, (x.2.plannedFor p.id).toNat +
        Call.unitsAsked (visits.flatMap (·.calls e b)) p.id < 4294967296 := by
      intro p mem
      have fits := fits p mem
      rw [List.flatMap_append, Call.unitsAsked_append] at fits
      omega
    have grows : ∀ p ∈ e.providers, v.state.plannedFor p.id ≤ y.2.plannedFor p.id := by
      intro p mem
      have whole := (tour.visit missing leads).plannedFor_eq p.id (fits p mem)
      have part : (v.state.plannedFor p.id).toNat = _ := tour.plannedFor_eq p.id (before p mem)
      rw [List.flatMap_append, Call.unitsAsked_append] at whole
      exact UInt32.le_iff_toNat_le.2 (by omega)
    intro stop mem
    have grows := grows stop.2 (listed stop mem)
    rcases ih before stop mem with next | spent
    · rcases List.mem_cons.1 next with rfl | next
      · exact .inr (spent_visited wanes (listed _ mem) leads grows)
      · exact .inl next
    · exact .inr (spent.kept leads grows)

/-! ## The second time -/

/-- A visit comes to nothing where the limit is spent. -/
theorem idle_of_spent {v : Visit L} (spent : e.Spent b v.site.calls v.state v.stop)
    (missing : v.state.unsatisfied v.resource ≠ 0) :
    v.units e b = 0 ∧ v.informed e b = v.state := by
  by_cases may : v.eligible e b = true
  · obtain ⟨admits, yes⟩ := Visit.eligible_iff.1 may
    rw [Visit.headroom, ← List.append_nil v.site.calls] at yes
    have none : v.state.budget.remaining.find? v.slot = some 0 :=
      spent missing admits [] _ (UInt32.le_refl _) yes
    have looked : v.state.remainingLimit v.slot (Limiter.leaves v.site.limiter v.slot) =
        (0, v.state) := by
      rw [ReviewState.remainingLimit, Budget.lookUp, none]
    rw [Visit.units, Visit.informed, if_pos may, if_pos may, Visit.remaining, looked]
    exact ⟨UInt32.toNat_inj.1 ((Count.toNat_min _ _).trans (Nat.min_zero _)), rfl⟩
  · rw [Visit.units, Visit.informed, if_neg may, if_neg may]
    exact ⟨rfl, rfl⟩

/-- Providers whose limits are spent are at most asked for their headroom. -/
theorem visit_spent (r : ResourceClass) (later : List ResourceClass) {ps : Registry} {s : Site L}
    {st : ReviewState} (spent : ∀ p ∈ ps, e.Spent b s.calls st (r, p)) :
    ∃ asked : List Call, (∀ call ∈ asked, ∃ n answer, call.question = .headroom n answer) ∧
      e.visit w b r later ps s st = .settled { s with calls := s.calls ++ asked } st := by
  induction ps generalizing s with
  | nil => exact ⟨[], List.forall_mem_nil _, by rw [visit, List.append_nil]⟩
  | cons p rest ih =>
    simp only [visit]
    by_cases covered : st.unsatisfied r = 0
    · exact ⟨[], List.forall_mem_nil _, by rw [if_pos covered, List.append_nil]⟩
    rw [if_neg covered]
    let v : Visit L := ⟨r, p, s, st, none⟩
    have consulted : e.consult b r p s st = _ := consult_eq v
    have nothing : v.units e b = 0 ∧ v.informed e b = st :=
      idle_of_spent (v := v) (spent p List.mem_cons_self) covered
    rw [consulted, nothing.1, nothing.2]
    simp only [if_true]
    let s' : Site L := { s with calls := s.calls ++ v.questions e b }
    have rest : ∀ p ∈ rest, e.Spent b s'.calls st (r, p) :=
      fun p mem => (spent p (List.mem_cons_of_mem _ mem)).later _
    obtain ⟨asked, questions, settled⟩ := ih rest
    refine ⟨v.questions e b ++ asked, ?_, ?_⟩
    · intro call mem
      exact (List.mem_append.1 mem).elim Visit.question_of_mem (questions call)
    · rw [← List.append_assoc]
      exact settled

theorem visitClasses_spent {rs : List ResourceClass} {s : Site L} {st : ReviewState}
    (spent : ∀ r ∈ rs, ∀ p ∈ e.providers, e.Spent b s.calls st (r, p)) :
    ∃ asked : List Call, (∀ call ∈ asked, ∃ n answer, call.question = .headroom n answer) ∧
      e.visitClasses w b rs s st = .settled { s with calls := s.calls ++ asked } st := by
  induction rs generalizing s with
  | nil => exact ⟨[], List.forall_mem_nil _, by rw [visitClasses, List.append_nil]⟩
  | cons r later ih =>
    obtain ⟨asked, questions, settled⟩ :=
      visit_spent (w := w) r later (spent r List.mem_cons_self)
    let s' : Site L := { s with calls := s.calls ++ asked }
    have rest : ∀ r ∈ later, ∀ p ∈ e.providers, e.Spent b s'.calls st (r, p) :=
      fun r mem p listed => (spent r (List.mem_cons_of_mem _ mem) p listed).later _
    obtain ⟨asked', questions', settled'⟩ := ih rest
    refine ⟨asked ++ asked', ?_, ?_⟩
    · intro call mem
      exact (List.mem_append.1 mem).elim (questions call) (questions' call)
    · rw [visitClasses_cons, settled, ← List.append_assoc]
      exact settled'

/-- An engine that has planned a review has nothing left to do for it: planning again, it asks no
provider for capacity, changes nothing that the review knows, reports nothing and leaves the rest of
the site alone, and the chain goes on with the next strategy. This takes providers that deliver what
they are asked for and do not find headroom again, and units that fit a count. -/
theorem start_again {s s₁ s₂ : Site L} {st st₁ : ReviewState} {own : List Call}
    (exact : b.Gives Answer.Exact) (wanes : b.Wanes e.providers)
    (works : e.Works w b Answer.Exact s (e.start w b s st) own (.settled s₁ st₁))
    (fits : ∀ p ∈ e.providers,
      (st.plannedFor p.id).toNat + Call.unitsAsked own p.id < 4294967296)
    (later : s₁.calls <+: s₂.calls) :
    ∃ asked : List Call, (∀ call ∈ asked, ∃ n answer, call.question = .headroom n answer) ∧
      e.start w b s₂ st₁ = .settled { s₂ with calls := s₂.calls ++ asked } st₁ ∧
      ∀ rest t, Chain.run w b (.engine e :: rest) t s₂ st₁ =
        Chain.run w b rest { t with run := t.run + 1 }
          { s₂ with calls := s₂.calls ++ asked } st₁ := by
  obtain ⟨visits, toured, rfl⟩ := works.toured exact (start_extends exact s st)
  cases toured with
  | settled tour =>
  have spent : ∀ r, ∀ p ∈ e.providers, e.enabled = true → e.Spent b s₂.calls st₁ (r, p) := by
    intro r p listed on missing
    obtain ⟨new, grown⟩ := later
    have before : st.unsatisfied r ≠ 0 := by
      intro covered
      have less := tour.unsatisfied_le r
      rw [covered] at less
      exact missing (UInt32.toNat_inj.1 (Nat.le_zero.1 less))
    have stop : (r, p) ∈ e.route st := by
      rw [route, if_pos on]
      exact List.mem_flatMap.2 ⟨r, ReviewState.mem_keys before, List.mem_map_of_mem listed⟩
    rcases tour.spent wanes (fun _ mem => listed_of_route mem) fits (r, p) stop with left | spent
    · cases left
    · rw [← grown]
      exact spent.later new missing
  have again : ∃ asked : List Call,
      (∀ call ∈ asked, ∃ n answer, call.question = .headroom n answer) ∧
      e.start w b s₂ st₁ = .settled { s₂ with calls := s₂.calls ++ asked } st₁ := by
    rw [start]
    split
    · rename_i on
      exact visitClasses_spent fun r _ p listed => spent r p listed on
    · exact ⟨[], List.forall_mem_nil _, by rw [List.append_nil]⟩
  obtain ⟨asked, questions, settled⟩ := again
  refine ⟨asked, questions, settled, ?_⟩
  intro rest t
  rw [Chain.run_engine, settled]
  rfl

end Engine

/-! ## A provider that is listed twice -/

namespace Sample

theorem prompt_wanes (ps : Registry) : prompt.Wanes ps := by
  refine Behaviour.wanes_of_steady (fun _ _ _ _ _ => rfl) ?_
  intro p _ r n m le yes
  have below : m < 3 := of_decide_eq_true (Except.ok.inj yes)
  exact congrArg Except.ok (decide_eq_true (UInt32.lt_of_le_of_lt le below))

/-- Nine items wait. -/
def crowded : ReviewState where
  review := .fresh 0
  classes := (∅ : Table ResourceClass ClassDemand).insert .unlabeled ⟨[], ⟨9, 0, 0⟩⟩

def twice : Engine := { providers := [provider 1, provider 1, provider 2] }

end Sample

/-- Four units are planned and five are missing, and there is still nothing left to do. -/
theorem again_of_sample : ∃ (own asked : List Call) (s : Site StaticLimiter) (st : ReviewState),
    Sample.twice.Works Sample.wiring Sample.prompt Answer.Exact Sample.start.site
      (Sample.twice.start Sample.wiring Sample.prompt Sample.start.site Sample.crowded) own
      (.settled s st) ∧
    st.unsatisfied .unlabeled = 5 ∧
    (∀ call ∈ asked, ∃ n answer, call.question = .headroom n answer) ∧
    Sample.twice.start Sample.wiring Sample.prompt s st =
      .settled { s with calls := s.calls ++ asked } st := by
  obtain ⟨s₁, st₁, pause, own, more, waits, calls, s₂, st₂, goesOn, calls', missing, fits, given⟩ :
      ∃ s₁ st₁ pause own more,
        Sample.twice.start Sample.wiring Sample.prompt Sample.start.site Sample.crowded =
          .waiting s₁ st₁ pause ∧
        s₁.calls = Sample.start.site.calls ++ own ∧
      ∃ s₂ st₂, Sample.twice.resume Sample.wiring Sample.prompt pause Sample.delivery s₁ st₁ =
          .settled s₂ st₂ ∧
        s₂.calls = s₁.calls ++ more ∧ st₂.unsatisfied .unlabeled = 5 ∧
        (∀ p ∈ Sample.twice.providers,
          (Sample.crowded.plannedFor p.id).toNat + Call.unitsAsked (own ++ more) p.id <
            4294967296) ∧
        Answer.Exact pause.request Sample.delivery :=
    ⟨_, _, _, _, [], rfl, rfl, _, _, rfl, rfl, by decide, by decide, _, rfl, by decide⟩
  have works : Sample.twice.Works Sample.wiring Sample.prompt Answer.Exact Sample.start.site
      (Sample.twice.start Sample.wiring Sample.prompt Sample.start.site Sample.crowded)
      (own ++ more) (.settled s₂ st₂) := by
    rw [waits, ← goesOn]
    refine .resume (.start calls) (List.prefix_refl _) given ?_
    rw [goesOn]
    exact calls'
  obtain ⟨asked, questions, again, -⟩ := Engine.start_again Sample.prompt_exact
    (Sample.prompt_wanes _) works fits (List.prefix_refl _)
  exact ⟨_, asked, s₂, st₂, works, missing, questions, again⟩

end Muster
