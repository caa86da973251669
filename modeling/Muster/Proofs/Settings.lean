import Muster.Host.Assembly
import Muster.Proofs.Declarations

/-!
# Settings a host can run with

Settings are checked when they are read, and whether a host can run with them turns out later: its
timers must not have an interval of zero, its line of requests must not be too long, and the classes
that it serves must have names. What is read passes the first test. It passes the others with two
exceptions, which are said here in terms of the variables: a capacity beyond the longest line, and a
declaration with nothing between two bars.

**Main statement.** `Config.accepted_exact`.
-/

namespace Muster

/-! ## Declarations -/

namespace ProviderSpec

/-- A declaration with nothing before, between or after the bars of its classes. -/
def Gapped (spec : String) : Prop := ∃ name kind classes rest,
  Split.split ':' (Blank.trim spec.toList) = name :: kind :: classes :: rest ∧
    [] ∈ Split.split '|' classes

variable {p : ProviderSpec}

theorem classOfChars_eq_label_empty {cs : List Char} :
    classOfChars cs = .label "" ↔ cs = [] := by
  constructor
  · intro same
    rw [← classChars_classOfChars cs, same]
    rfl
  · rintro rfl
    rfl

/-- The third part of a declaration lists the classes. -/
theorem classes_of_ofChars? {cs : List Char} (read : ofChars? cs = some p) :
    ∃ name kind classes rest, Split.split ':' (Blank.trim cs) = name :: kind :: classes :: rest ∧
      p.classes = (Split.split '|' classes).map classOfChars := by
  have parts : ∀ {name kind classes limit}, ofParts? name kind classes limit = some p →
      p.classes = (Split.split '|' classes).map classOfChars := by
    intro name kind classes limit read
    rw [ofParts?] at read
    split at read
    · cases read
    · cases read
      rfl
  unfold ofChars? at read
  split at read
  · rename_i name kind classes cut
    exact ⟨name, kind, classes, [], cut, parts read⟩
  · rename_i name kind classes limit cut
    obtain ⟨n, -, read⟩ := Option.bind_eq_some_iff.1 read
    exact ⟨name, kind, classes, [limit], cut, parts read⟩
  · cases read

/-- A declared provider serves a class with an empty label just if its declaration has a gap. -/
theorem mem_classes_iff_gapped {spec : String} (read : parse spec = .ok p) :
    .label "" ∈ p.classes ↔ Gapped spec := by
  have chars : ofChars? spec.toList = some p :=
    ofChars?_eq_some_iff.2 (parse_eq_ok_iff.1 read)
  obtain ⟨name, kind, classes, rest, cut, listed⟩ := classes_of_ofChars? chars
  have empty : .label "" ∈ p.classes ↔ [] ∈ Split.split '|' classes := by
    rw [listed, List.mem_map]
    constructor
    · rintro ⟨piece, mem, same⟩
      rwa [← classOfChars_eq_label_empty.1 same]
    · exact fun mem => ⟨[], mem, rfl⟩
  rw [empty]
  constructor
  · exact fun gap => ⟨name, kind, classes, rest, cut, gap⟩
  · rintro ⟨name', kind', classes', rest', cut', gap⟩
    rw [cut] at cut'
    cases cut'
    exact gap

end ProviderSpec

/-! ## Timers -/

/-- Milliseconds between two ticks of a loop. -/
def BackgroundLoop.period : BackgroundLoop → Nat
  | worker w => w.interval
  | generator g => g.every

namespace Config

variable {lookUp : String → Option String} {c : Config}

/-- What reading the settings makes sure of. -/
structure Checked (c : Config) : Prop where
  interval : 0 < c.reviewIntervalSeconds
  arrival : ∀ ms, c.arrivalMilliseconds = some ms → 0 < ms
  /-- The timers of the loops can be set. -/
  timers : ∀ l ∈ c.loops, 0 < l.period
  names : ∀ p ∈ c.providers, p.name ≠ ""
  kinds : ∀ p ∈ c.providers, p.kind ≠ ""
  classes : ∀ p ∈ c.providers, p.classes ≠ []

/-! ## Variables -/

theorem bind_eq_ok {ε α β : Type} {x : Except ε α} {f : α → Except ε β} {b : β}
    (h : (x >>= f) = .ok b) : ∃ a, x = .ok a ∧ f a = .ok b := by
  cases x with
  | error e => cases h
  | ok a => exact ⟨a, rfl, h⟩

theorem positive_eq_ok {variableName : String} {absent n : Nat}
    (read : positive lookUp variableName absent = .ok n) :
    lookUp variableName = none ∧ n = absent ∨
      ∃ value, lookUp variableName = some value ∧ word? value = some n ∧ 0 < n := by
  rw [positive] at read
  split at read
  · rename_i unset
    exact .inl ⟨unset, (Except.ok.inj read).symm⟩
  · rename_i value set
    split at read
    · rename_i m number
      split at read
      · rename_i positive
        cases read
        exact .inr ⟨value, set, number, positive⟩
      · cases read
    · cases read

theorem readArrival_eq_ok {ms : Nat} (read : readArrival lookUp = .ok (some ms)) : 0 < ms := by
  rw [readArrival] at read
  split at read
  · cases read
  · split at read
    · rename_i n number
      by_cases zero : n = 0
      · rw [if_pos zero] at read
        cases read
      · rw [if_neg zero] at read
        cases read
        exact Nat.pos_of_ne_zero zero
    · cases read

/-- Declarations are read one by one. -/
theorem mapM_parse_eq_ok {specs : List String} {ps : List ProviderSpec}
    (read : specs.mapM ProviderSpec.parse = .ok ps) :
    List.Forall₂ (fun spec p => ProviderSpec.parse spec = .ok p) specs ps := by
  induction specs generalizing ps with
  | nil =>
    cases read
    exact .nil
  | cons spec specs ih =>
    rw [List.mapM_cons] at read
    obtain ⟨p, first, read⟩ := bind_eq_ok read
    obtain ⟨more, rest, read⟩ := bind_eq_ok read
    cases read
    exact .cons first (ih rest)

/-- The providers are those that are declared, or the one of a host that declares none. -/
theorem readProviders_eq_ok {ps : List ProviderSpec} (read : readProviders lookUp = .ok ps) :
    lookUp "NODELAY_PROVIDERS" = none ∧ ps = [defaultProvider] ∨
      ∃ value, lookUp "NODELAY_PROVIDERS" = some value ∧
        List.Forall₂ (fun spec p => ProviderSpec.parse spec = .ok p) (specs value) ps := by
  rw [readProviders] at read
  split at read
  · rename_i unset
    exact .inl ⟨unset, (Except.ok.inj read).symm⟩
  · rename_i value set
    exact .inr ⟨value, set, mapM_parse_eq_ok read⟩

/-- The parts of settings that were accepted. -/
theorem ofVariables_eq_ok (accepted : ofVariables lookUp = .ok c) :
    positive lookUp "NODELAY_REVIEW_INTERVAL_SECS" 10 = .ok c.reviewIntervalSeconds ∧
      positive lookUp "NODELAY_REVIEW_QUEUE_CAPACITY" 1024 = .ok c.reviewQueueCapacity ∧
      readProviders lookUp = .ok c.providers ∧ readArrival lookUp = .ok c.arrivalMilliseconds := by
  rw [ofVariables] at accepted
  obtain ⟨interval, first, accepted⟩ := bind_eq_ok accepted
  obtain ⟨capacity, second, accepted⟩ := bind_eq_ok accepted
  obtain ⟨providers, third, accepted⟩ := bind_eq_ok accepted
  obtain ⟨arrival, fourth, accepted⟩ := bind_eq_ok accepted
  cases accepted
  exact ⟨first, second, third, fourth⟩

/-- Every provider of accepted settings can be declared. -/
theorem declarable_of_ok (accepted : ofVariables lookUp = .ok c) {p : ProviderSpec}
    (mem : p ∈ c.providers) : p = defaultProvider ∨ p.Declarable := by
  rcases readProviders_eq_ok (ofVariables_eq_ok accepted).2.2.1 with
    ⟨-, alone⟩ | ⟨value, -, each⟩
  · rw [alone] at mem
    exact .inl (List.mem_singleton.1 mem)
  · obtain ⟨i, here, rfl⟩ := List.mem_iff_getElem.1 mem
    have read := each.get (by rwa [each.length_eq]) here
    exact .inr (ProviderSpec.parse_eq_ok_iff.1 read).1

theorem checked (accepted : ofVariables lookUp = .ok c) : c.Checked := by
  obtain ⟨interval, -, -, arrival⟩ := ofVariables_eq_ok accepted
  have often : 0 < c.reviewIntervalSeconds := by
    rcases positive_eq_ok interval with ⟨-, absent⟩ | ⟨-, -, -, positive⟩
    · rw [absent]
      decide
    · exact positive
  have arrives : ∀ ms, c.arrivalMilliseconds = some ms → 0 < ms := fun ms set =>
    readArrival_eq_ok (arrival.trans (congrArg Except.ok set))
  constructor
  case interval => exact often
  case arrival => exact arrives
  case timers =>
    intro l mem
    rcases List.mem_cons.1 mem with rfl | mem
    · exact Nat.mul_pos often (by decide)
    · split at mem
      · rename_i every set
        cases List.mem_singleton.1 mem
        exact arrives every set
      · cases mem
  case names =>
    intro p mem
    rcases declarable_of_ok accepted mem with rfl | declarable
    · decide
    · exact declarable.name
  case kinds =>
    intro p mem
    rcases declarable_of_ok accepted mem with rfl | declarable
    · decide
    · exact declarable.kind
  case classes =>
    intro p mem
    rcases declarable_of_ok accepted mem with rfl | declarable
    · decide
    · exact declarable.classes

/-! ## What may be missing -/

/-- There is a host just if its line of requests can be made. -/
theorem host?_isSome_iff (c : Config) :
    c.host?.isSome = true ↔ c.reviewQueueCapacity ≤ RequestLine.longest := by
  have least : 1 ≤ RequestLine.longest := by decide
  rw [host?, RequestLine.ofCapacity?]
  by_cases short : c.reviewQueueCapacity ≤ RequestLine.longest
  · rw [if_pos (Nat.max_le.2 ⟨short, least⟩)]
    exact iff_of_true rfl short
  · rw [if_neg fun fits => short (Nat.max_le.1 fits).1]
    exact iff_of_false Bool.false_ne_true short

/-- The capacity that is asked for is no more than the longest line. -/
def LineFits (lookUp : String → Option String) : Prop :=
  ∀ value n, lookUp "NODELAY_REVIEW_QUEUE_CAPACITY" = some value → word? value = some n →
    n ≤ RequestLine.longest

/-- No declaration has a gap between its bars. -/
def NoGaps (lookUp : String → Option String) : Prop :=
  ∀ value, lookUp "NODELAY_PROVIDERS" = some value → ∀ spec ∈ specs value,
    ¬ ProviderSpec.Gapped spec

theorem capacity_le_iff (accepted : ofVariables lookUp = .ok c) :
    c.reviewQueueCapacity ≤ RequestLine.longest ↔ LineFits lookUp := by
  rcases positive_eq_ok (ofVariables_eq_ok accepted).2.1 with
    ⟨unset, absent⟩ | ⟨value, set, number, -⟩
  · refine iff_of_true (by rw [absent]; decide) fun value n set => ?_
    cases unset.symm.trans set
  · constructor
    · intro fits value' n set' number'
      cases set.symm.trans set'
      cases number.symm.trans number'
      exact fits
    · exact fun fits => fits value _ set number

theorem labels_iff (accepted : ofVariables lookUp = .ok c) :
    (∀ p ∈ c.providers, .label "" ∉ p.classes) ↔ NoGaps lookUp := by
  rcases readProviders_eq_ok (ofVariables_eq_ok accepted).2.2.1 with
    ⟨unset, alone⟩ | ⟨value, set, each⟩
  · refine iff_of_true ?_ fun value set => ?_
    · rw [alone, List.forall_mem_singleton]
      decide
    · cases unset.symm.trans set
  · constructor
    · intro named value' set' spec mem gap
      cases set.symm.trans set'
      obtain ⟨i, here, rfl⟩ := List.mem_iff_getElem.1 mem
      have there : i < c.providers.length := each.length_eq ▸ here
      exact named _ (List.getElem_mem there)
        ((ProviderSpec.mem_classes_iff_gapped (each.get here there)).2 gap)
    · intro whole p mem empty
      obtain ⟨i, here, rfl⟩ := List.mem_iff_getElem.1 mem
      have there : i < (specs value).length := each.length_eq.symm ▸ here
      exact whole value set _ (List.getElem_mem there)
        ((ProviderSpec.mem_classes_iff_gapped (each.get there here)).1 empty)

/-- Settings that were accepted have timers that can be set, and providers with names, kinds and
classes. There is a host for them just if the capacity in its variable is no more than the longest
line, and every class of every provider is without a label or has one that is not empty just if no
declaration has a gap between its bars. -/
theorem accepted_exact (accepted : ofVariables lookUp = .ok c) :
    c.Checked ∧ (c.host?.isSome = true ↔ LineFits lookUp) ∧
      ((∀ p ∈ c.providers, .label "" ∉ p.classes) ↔ NoGaps lookUp) :=
  ⟨checked accepted, (host?_isSome_iff c).trans (capacity_le_iff accepted), labels_iff accepted⟩

/-- Settings are accepted although there is no line that long, or although a class has an empty
label. -/
theorem unusable_of_sample :
    (∃ c, ofVariables (only "NODELAY_REVIEW_QUEUE_CAPACITY" "2305843009213693952") = .ok c ∧
      c.host?.isSome = false) ∧
    ∃ c, ofVariables (only "NODELAY_PROVIDERS" "a:vm:x||y") = .ok c ∧
      ∃ p ∈ c.providers, .label "" ∈ p.classes := by
  constructor
  · exact ⟨⟨true, 10, 2305843009213693952, "info", none, [defaultProvider], none⟩, by decide, rfl⟩
  · exact ⟨⟨true, 10, 1024, "info", none,
      [⟨"a", "vm", [.label "x", .label "", .label "y"], none⟩], none⟩, by decide, by decide⟩

/-- The longest line there can be, and two providers with a class in common. -/
def Sample.variables : String → Option String := fun name =>
  if name = "NODELAY_REVIEW_QUEUE_CAPACITY" then some "2305843009213693951"
  else if name = "NODELAY_PROVIDERS" then some "a:vm:x|_:3, b:vm:x"
  else if name = "NODELAY_SIMULATE_ARRIVAL_MS" then some "+020"
  else none

theorem accepted_of_sample : ∃ c, ofVariables Sample.variables = .ok c ∧ c.Checked ∧
    c.host?.isSome = true ∧ NoGaps Sample.variables := by
  have accepted : ofVariables Sample.variables = .ok ⟨true, 10, 2305843009213693951, "info", none,
      [⟨"a", "vm", [.label "x", .unlabeled], some 3⟩, ⟨"b", "vm", [.label "x"], none⟩],
      some 20⟩ := by decide
  have fits : LineFits Sample.variables := by
    intro value n set number
    cases set
    have read : word? "2305843009213693951" = some 2305843009213693951 := by decide
    cases read.symm.trans number
    exact Nat.le_refl _
  obtain ⟨checked, line, labels⟩ := accepted_exact accepted
  exact ⟨_, accepted, checked, line.2 fits, labels.1 (by decide)⟩

end Config

end Muster
