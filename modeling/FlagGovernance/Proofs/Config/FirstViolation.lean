import FlagGovernance.Proofs.Config.WellFormed
import FlagGovernance.Proofs.Precedence
/-
The violation that validation reports.

`Broken` says what is broken in a configuration, at which rank it stands in the order of the
rules, and how it is told.  Validation reports what stands at the least rank: it is broken
as told, and nothing is at any rank before it.
-/

namespace FlagGovernance

/-- A selection names a variation, as the reference of a number, in a field of its own. -/
inductive Selection.Refers : Selection → Nat → String → String → Prop
  | variation {name : String} : Selection.Refers (.variation name) 0 "variation" name
  | split {split : Split} {i : Nat} {name : String} (hkey : split.keys[i]? = some name) :
      Selection.Refers (.percentage split) i ("percentage." ++ name) name
  | initial {ramp : Ramp} : Selection.Refers (.progressive ramp) 0
      "progressiveRollout.initial.variation" ramp.initial.variation
  | final {ramp : Ramp} : Selection.Refers (.progressive ramp) 1
      "progressiveRollout.end.variation" ramp.final.variation

namespace RuleSet

/-- The selections by number, the default before the rules, each with its path. -/
inductive Seats (set : RuleSet) : Nat → String → Selection → Prop
  | defaultRule : set.Seats 0 (set.path ++ "defaultRule") set.defaultRule
  | rule {i : Nat} {rule : TargetingRule} (hrule : set.targeting[i]? = some rule) :
      set.Seats (i + 1) (set.path ++ "targeting[" ++ toString i ++ "]") rule.selection

/-- A reference to no variation: the ranks are those of the selection and of the reference. -/
inductive Unresolved (variations : Variations) (set : RuleSet) : Rank → Violation → Prop
  | reference {seat i : Nat} {path field name : String} {selection : Selection}
      (hseat : set.Seats seat path selection) (hrefers : selection.Refers i field name)
      (hunknown : name ∉ variations.keys) :
      Unresolved variations set [seat, i] ⟨path ++ "." ++ field, .unknownVariation name⟩

/-- What else is broken in the rules: names and queries rule by rule, then weights, then ramps. -/
inductive Broken (set : RuleSet) : Rank → Violation → Prop
  | unnamed {i : Nat} {rule : TargetingRule} (hrule : set.targeting[i]? = some rule)
      (hblank : rule.trimmedName = "") :
      set.Broken [0, i, 0] ⟨set.path ++ "targeting[" ++ toString i ++ "]" ++ ".name",
        .missingRuleName⟩
  | repeated {i j : Nat} {rule earlier : TargetingRule} (hrule : set.targeting[i]? = some rule)
      (hbefore : j < i) (hearlier : set.targeting[j]? = some earlier)
      (hsame : earlier.trimmedName = rule.trimmedName) :
      set.Broken [0, i, 1] ⟨set.path ++ "targeting[" ++ toString i ++ "]" ++ ".name",
        .duplicateRuleName rule.trimmedName⟩
  | query {i : Nat} {rule : TargetingRule} {cause : SyntaxError}
      (hrule : set.targeting[i]? = some rule) (hquery : Query.parse rule.query = .error cause) :
      set.Broken [0, i, 2] ⟨set.path ++ "targeting[" ++ toString i ++ "]" ++ ".query",
        .invalidQuery cause⟩
  | weight {seat i : Nat} {path name : String} {split : Split} {weight : Double}
      (hseat : set.Seats seat path (.percentage split))
      (hweight : split.entries[i]? = some (name, weight))
      (hbad : weight.lt .zero = true ∨ weight.isNaN = true) :
      set.Broken [1, seat, i] ⟨path ++ ".percentage." ++ name, .negativePercentage name weight⟩
  | dates {seat : Nat} {path : String} {ramp : Ramp}
      (hseat : set.Seats seat path (.progressive ramp))
      (hdates : ¬ ramp.initial.date.before ramp.final.date = true) :
      set.Broken [2, seat, 0] ⟨path ++ ".progressiveRollout" ++ ".end.date", .endNotAfterStart⟩
  | initial {seat : Nat} {path : String} {ramp : Ramp} {value : Double}
      (hseat : set.Seats seat path (.progressive ramp))
      (hvalue : ramp.initial.percentage = some value)
      (hrange : ¬ (Double.zero.le value = true ∧ value.le (.ofNat 100) = true)) :
      set.Broken [2, seat, 1] ⟨path ++ ".progressiveRollout" ++ "." ++ "initial" ++ ".percentage",
        .percentageOutOfRange value⟩
  | final {seat : Nat} {path : String} {ramp : Ramp} {value : Double}
      (hseat : set.Seats seat path (.progressive ramp))
      (hvalue : ramp.final.percentage = some value)
      (hrange : ¬ (Double.zero.le value = true ∧ value.le (.ofNat 100) = true)) :
      set.Broken [2, seat, 2] ⟨path ++ ".progressiveRollout" ++ "." ++ "end" ++ ".percentage",
        .percentageOutOfRange value⟩

end RuleSet

namespace FlagConfig

/-- The rules of a scheduled step. -/
def stepSet (index : Nat) (step : ScheduledStep) : RuleSet :=
  ⟨"scheduledRollout[" ++ toString index ++ "]" ++ ".", step.targeting.getD [], step.defaultRule⟩

/-- What is broken in a configuration, with its rank.  The references of the top level and of
all steps stand at rank one, before everything else about the rules. -/
inductive Broken (c : FlagConfig) : Rank → Violation → Prop
  | unvaried (hnone : c.variations.keys = []) : c.Broken [0] ⟨"variations", .noVariations⟩
  | reference {rank : Rank} {v : Violation}
      (hbroken : RuleSet.Unresolved c.variations ⟨"", c.targeting, c.defaultRule⟩ rank v) :
      c.Broken (1 :: 0 :: rank) v
  | stepReference {i : Nat} {step : ScheduledStep} {rank : Rank} {v : Violation}
      (hstep : c.schedule[i]? = some step)
      (hbroken : (stepSet i step).Unresolved c.variations rank v) :
      c.Broken (1 :: (i + 1) :: rank) v
  | rules {rank : Rank} {v : Violation}
      (hbroken : RuleSet.Broken ⟨"", c.targeting, c.defaultRule⟩ rank v) : c.Broken (2 :: rank) v
  | stepDate {i : Nat} {earlier later : ScheduledStep} (hearlier : c.schedule[i]? = some earlier)
      (hlater : c.schedule[i + 1]? = some later)
      (hdates : ¬ earlier.date.before later.date = true) :
      c.Broken [3, i] ⟨"scheduledRollout[" ++ toString (i + 1) ++ "]" ++ ".date",
        .stepNotAfterPrevious⟩
  | stepRules {i : Nat} {step : ScheduledStep} {rank : Rank} {v : Violation}
      (hstep : c.schedule[i]? = some step) (hbroken : (stepSet i step).Broken rank v) :
      c.Broken (4 :: i :: rank) v
  | experiment {start finish : Instant}
      (hexperiment : c.experiment = some ⟨some start, some finish⟩)
      (hdates : ¬ start.before finish = true) :
      c.Broken [5] ⟨"experimentation.end", .endNotAfterStart⟩

end FlagConfig

namespace Selection

theorem references_percentage_getElem? (split : Split) (i : Nat) :
    (percentage split).references[i]? =
      split.keys[i]?.map (fun name => ("percentage." ++ name, name)) :=
  List.getElem?_map

theorem references_getElem?_iff {s : Selection} {i : Nat} {field name : String} :
    s.references[i]? = some (field, name) ↔ s.Refers i field name := by
  constructor
  · intro href
    cases s with
    | variation name' =>
        match i, href with
        | 0, rfl => exact .variation
    | percentage split =>
        rw [references_percentage_getElem?] at href
        obtain ⟨name', hkey, hsame⟩ := Option.map_eq_some_iff.1 href
        cases hsame
        exact .split hkey
    | progressive ramp =>
        match i, href with
        | 0, rfl => exact .initial
        | 1, rfl => exact .final
  · intro hrefers
    cases hrefers with
    | variation | initial | final => rfl
    | split hkey =>
        rw [references_percentage_getElem?, hkey]
        rfl

theorem Refers.unique {s : Selection} {i : Nat} {field field' name name' : String}
    (hrefers : s.Refers i field name) (hagain : s.Refers i field' name') :
    field = field' ∧ name = name' := by
  have hsame := (references_getElem?_iff.2 hrefers).symm.trans (references_getElem?_iff.2 hagain)
  exact Prod.mk.inj (Option.some.inj hsame)

end Selection

namespace RuleSet

theorem selections_getElem?_iff {set : RuleSet} {n : Nat} {path : String} {s : Selection} :
    set.selections[n]? = some (path, s) ↔ set.Seats n path s := by
  have hrule : ∀ i, (set.targeting.zipIdx.map (fun r => (set.rulePath r.2, r.1.selection)))[i]? =
      set.targeting[i]?.map (fun rule => (set.rulePath i, rule.selection)) := by
    intro i
    rw [List.getElem?_map, List.getElem?_zipIdx, Option.map_map, Nat.zero_add]
    rfl
  constructor
  · intro hseat
    cases n with
    | zero =>
        cases hseat
        exact .defaultRule
    | succ i =>
        rw [selections, List.getElem?_cons_succ, hrule] at hseat
        obtain ⟨rule, hfound, hsame⟩ := Option.map_eq_some_iff.1 hseat
        cases hsame
        exact .rule hfound
  · intro hseat
    cases hseat with
    | defaultRule => rfl
    | rule hfound =>
        rw [selections, List.getElem?_cons_succ, hrule, hfound]
        rfl

theorem Seats.lt_length {set : RuleSet} {n : Nat} {path : String} {s : Selection}
    (hseat : set.Seats n path s) : n < set.selections.length :=
  (List.getElem?_eq_some_iff.1 (selections_getElem?_iff.2 hseat)).1

theorem Seats.unique {set : RuleSet} {n : Nat} {path path' : String} {s s' : Selection}
    (hseat : set.Seats n path s) (hagain : set.Seats n path' s') : path = path' ∧ s = s' := by
  have hsame := (selections_getElem?_iff.2 hseat).symm.trans (selections_getElem?_iff.2 hagain)
  exact Prod.mk.inj (Option.some.inj hsame)

/-- A check of each selection in its turn. -/
theorem tellsFirst_selections {set : RuleSet} {check : String × Selection → List Violation}
    {P : Nat → Rank → Violation → Prop}
    (hcheck : ∀ seat path s, set.Seats seat path s →
      TellsFirst (check (path, s)).head? (P seat))
    (honly : ∀ seat rank v, P seat rank v → ∃ path s, set.Seats seat path s) :
    TellsFirst (set.selections.flatMap check).head? (Numbered 0 P) := by
  rw [List.head?_flatMap]
  refine .findSome? (fun seat found hfound => ?_) (fun seat rank v hwrong => ?_)
  · obtain ⟨path, s⟩ := found
    exact hcheck seat path s (selections_getElem?_iff.1 hfound)
  · obtain ⟨path, s, hseat⟩ := honly seat rank v hwrong
    exact hseat.lt_length

theorem unknownReferences_tellsFirst (variations : Variations) (set : RuleSet) :
    TellsFirst (set.unknownReferences variations).head? (set.Unresolved variations) := by
  refine .parts nofun (tellsFirst_selections (fun seat path s hseat => .parts nofun ?_) ?_)
  · rw [List.head?_filterMap]
    refine .findSome? (fun i ref href => ?_) ?_
    · obtain ⟨field, name⟩ := ref
      rw [Selection.references_getElem?_iff] at href
      rw [← ite_not]
      refine .ite (fun rank v => ?_)
      rw [OrderedMap.contains_iff_mem_keys]
      constructor
      · rintro ⟨hseat', href', hunknown⟩
        obtain ⟨rfl, rfl⟩ := hseat.unique hseat'
        obtain ⟨rfl, rfl⟩ := href.unique href'
        exact ⟨rfl, hunknown, rfl⟩
      · rintro ⟨rfl, hunknown, rfl⟩
        exact .reference hseat href hunknown
    · rintro i rank v ⟨hseat', href', _⟩
      obtain ⟨-, rfl⟩ := hseat.unique hseat'
      exact (List.getElem?_eq_some_iff.1 (Selection.references_getElem?_iff.2 href')).1
  · rintro seat rank v ⟨hseat, _, _⟩
    exact ⟨_, _, hseat⟩

/-- What is wrong with the query alone. -/
def queryViolation? (path query : String) : Option Violation :=
  match Query.parse query with
  | .ok _ => none
  | .error cause => some ⟨path ++ ".query", .invalidQuery cause⟩

theorem queryViolation?_eq_some_iff {path query : String} {v : Violation} :
    queryViolation? path query = some v ↔
      ∃ cause, Query.parse query = .error cause ∧ ⟨path ++ ".query", .invalidQuery cause⟩ = v := by
  rw [queryViolation?]
  cases hquery : Query.parse query with
  | ok expr => simp
  | error cause => simp

/-- A rule is asked for a name, then for one of its own, then for its query. -/
theorem ruleViolation_eq (path : String) (before : List String) (rule : TargetingRule) :
    ruleViolation path before rule =
      (if rule.trimmedName = "" then some ⟨path ++ ".name", .missingRuleName⟩ else none).or
        ((if rule.trimmedName ∈ before then
            some ⟨path ++ ".name", .duplicateRuleName rule.trimmedName⟩ else none).or
          (queryViolation? path rule.query)) := by
  have hblank : (Text.trim rule.name).isEmpty = true ↔ rule.trimmedName = "" := String.isEmpty_iff
  simp only [ruleViolation, hblank]
  by_cases hnamed : rule.trimmedName = ""
  · rw [if_pos hnamed, if_pos hnamed, Option.some_or]
  · rw [if_neg hnamed, if_neg hnamed, Option.none_or]
    by_cases hbefore : Text.trim rule.name ∈ before
    · rw [if_pos hbefore, TargetingRule.trimmedName, if_pos hbefore, Option.some_or]
    · rw [if_neg hbefore, TargetingRule.trimmedName, if_neg hbefore, Option.none_or]
      rfl

theorem mem_take_names_iff {rules : List TargetingRule} {i : Nat} {name : String} :
    name ∈ (rules.take i).map TargetingRule.trimmedName ↔
      ∃ j earlier, j < i ∧ rules[j]? = some earlier ∧ earlier.trimmedName = name := by
  rw [List.mem_map]
  simp only [List.mem_iff_getElem?, List.getElem?_take, Option.ite_none_right_eq_some]
  constructor
  · rintro ⟨earlier, ⟨j, hj, hearlier⟩, hsame⟩
    exact ⟨j, earlier, hj, hearlier, hsame⟩
  · rintro ⟨j, earlier, hj, hearlier, hsame⟩
    exact ⟨earlier, ⟨j, hj, hearlier⟩, hsame⟩

theorem ruleViolation_tellsFirst {set : RuleSet} {i : Nat} {rule : TargetingRule}
    (hrule : set.targeting[i]? = some rule) :
    TellsFirst (ruleViolation (set.rulePath i)
        ((set.targeting.take i).map TargetingRule.trimmedName) rule)
      (fun rank => set.Broken (0 :: i :: rank)) := by
  have hsame : ∀ rule', set.targeting[i]? = some rule' → rule' = rule :=
    fun rule' hrule' => Option.some.inj (hrule'.symm.trans hrule)
  rw [ruleViolation_eq, ← Option.or_none (o := queryViolation? _ _)]
  refine .parts nofun (.cons (.ite ?_) (fun _ => .cons (.ite ?_)
    (fun _ => .cons (.of_iff ?_) (fun _ => .nil ?_))))
  · intro rank v
    constructor
    · intro hbroken
      cases hbroken with
      | unnamed hrule' hblank =>
          obtain rfl := hsame _ hrule'
          exact ⟨rfl, hblank, rfl⟩
    · rintro ⟨rfl, hblank, rfl⟩
      exact .unnamed hrule hblank
  · intro rank v
    rw [mem_take_names_iff]
    constructor
    · intro hbroken
      cases hbroken with
      | repeated hrule' hbefore hearlier hagain =>
          obtain rfl := hsame _ hrule'
          exact ⟨rfl, ⟨_, _, hbefore, hearlier, hagain⟩, rfl⟩
    · rintro ⟨rfl, ⟨j, earlier, hbefore, hearlier, hagain⟩, rfl⟩
      exact .repeated hrule hbefore hearlier hagain
  · intro rank v
    rw [queryViolation?_eq_some_iff]
    constructor
    · intro hbroken
      cases hbroken with
      | query hrule' hquery =>
          obtain rfl := hsame _ hrule'
          exact ⟨rfl, _, hquery, rfl⟩
    · rintro ⟨rfl, cause, hquery, rfl⟩
      exact .query hrule hquery
  · intro n rank v hfrom hwrong
    cases hwrong with
    | unnamed | repeated | query => omega

/-- The rules from a place on, given the names of those before it. -/
theorem ruleViolations_tellsFirst {set : RuleSet} {index : Nat} {rules : List TargetingRule}
    (hrules : set.targeting.drop index = rules) :
    TellsFirst (set.ruleViolations index
        ((set.targeting.take index).map TargetingRule.trimmedName) rules).head?
      (Numbered index (fun i rank => set.Broken (0 :: i :: rank))) := by
  induction rules generalizing index with
  | nil =>
      refine .nil (fun i rank v hfrom hwrong => ?_)
      have hout : set.targeting[i]? = none :=
        List.getElem?_eq_none (Nat.le_trans (List.drop_eq_nil_iff.1 hrules) hfrom)
      cases hwrong with
      | unnamed hrule | repeated hrule | query hrule => rw [hout] at hrule; contradiction
  | cons rule rest ih =>
      have hrule : set.targeting[index]? = some rule := by
        rw [← List.head?_drop, hrules]
        rfl
      have hrest : set.targeting.drop (index + 1) = rest := by
        rw [← List.tail_drop, hrules]
        rfl
      have hnames : (set.targeting.take (index + 1)).map TargetingRule.trimmedName =
          (set.targeting.take index).map TargetingRule.trimmedName ++ [Text.trim rule.name] := by
        rw [List.take_add_one, hrule, List.map_append]
        rfl
      rw [ruleViolations, List.head?_append, Option.head?_toList, ← hnames]
      exact .cons (ruleViolation_tellsFirst hrule) (fun _ => ih hrest)

theorem nameAndQueryViolations_tellsFirst (set : RuleSet) :
    TellsFirst set.nameAndQueryViolations.head? (fun rank => set.Broken (0 :: rank)) :=
  .parts nofun (ruleViolations_tellsFirst List.drop_zero)

theorem weightViolations_tellsFirst (set : RuleSet) :
    TellsFirst set.weightViolations.head? (fun rank => set.Broken (1 :: rank)) := by
  refine .parts nofun (tellsFirst_selections (fun seat path s hseat => ?_) ?_)
  · cases s with
    | variation | progressive =>
        refine .none (fun rank v hbroken => ?_)
        cases hbroken with
        | weight hseat' => exact nomatch (hseat.unique hseat').2
    | percentage split =>
        rw [List.head?_filterMap]
        refine .parts nofun (.findSome? (fun i entry hentry => .ite (fun rank v => ?_)) ?_)
        · rw [badWeight, Bool.or_eq_true]
          constructor
          · intro hbroken
            cases hbroken with
            | weight hseat' hentry' hbad =>
                obtain ⟨rfl, hsplit⟩ := hseat.unique hseat'
                obtain rfl := Selection.percentage.inj hsplit
                obtain rfl := Option.some.inj (hentry.symm.trans hentry')
                exact ⟨rfl, hbad, rfl⟩
          · rintro ⟨rfl, hbad, rfl⟩
            exact .weight hseat hentry hbad
        · intro i rank v hbroken
          cases hbroken with
          | weight hseat' hentry' =>
              obtain rfl := Selection.percentage.inj (hseat.unique hseat').2
              exact (List.getElem?_eq_some_iff.1 hentry').1
  · intro seat rank v hbroken
    cases hbroken with
    | weight hseat => exact ⟨_, _, hseat⟩

/-- What is wrong with the percentage of one end of a ramp. -/
def shareViolation? (path : String) (percentage : Option Double) : Option Violation :=
  match percentage with
  | some value => if isPercentage value then none else some ⟨path, .percentageOutOfRange value⟩
  | none => none

theorem shareViolation?_eq_some_iff {path : String} {percentage : Option Double} {v : Violation} :
    shareViolation? path percentage = some v ↔
      ∃ value, percentage = some value ∧
        ¬ (Double.zero.le value = true ∧ value.le (.ofNat 100) = true) ∧
        ⟨path, .percentageOutOfRange value⟩ = v := by
  cases percentage with
  | none => simp [shareViolation?]
  | some value =>
      rw [shareViolation?, ← ite_not, Option.ite_none_right_eq_some, Option.some.injEq,
        isPercentage, Bool.and_eq_true]
      simp

theorem head?_ite_singleton {α : Type} (p : Prop) [Decidable p] (a : α) :
    (if p then [a] else []).head? = if p then some a else none := by
  split <;> rfl

theorem head?_filterMap_pair {α β : Type} (f : α → Option β) (a b : α) :
    ([a, b].filterMap f).head? = (f a).or (f b) := by
  rw [List.head?_filterMap, List.findSome?_cons, List.findSome?_cons, List.findSome?_nil]
  cases f a with
  | none => cases f b <;> rfl
  | some => rfl

/-- Of a ramp whose variations are known, dates are looked at before percentages. -/
theorem head?_rampViolations {variations : Variations} {ramp : Ramp}
    (hinitial : variations.contains ramp.initial.variation = true)
    (hfinal : variations.contains ramp.final.variation = true) (path : String) :
    (rampViolations variations path ramp).head? =
      (if ramp.final.date.notAfter ramp.initial.date = true then
          some ⟨path ++ ".end.date", .endNotAfterStart⟩ else none).or
        ((shareViolation? (path ++ "." ++ "initial" ++ ".percentage") ramp.initial.percentage).or
          (shareViolation? (path ++ "." ++ "end" ++ ".percentage") ramp.final.percentage)) := by
  rw [rampViolations, List.append_assoc, List.head?_append, List.head?_append, head?_ite_singleton,
    head?_filterMap_pair, head?_filterMap_pair, if_pos hinitial, if_pos hfinal, Option.none_or,
    Option.none_or]
  rfl

/-- The ramps of a set are asked for their variations once more, so these have to be known. -/
theorem progressiveViolations_tellsFirst {variations : Variations} {set : RuleSet}
    (hknown : set.unknownReferences variations = []) :
    TellsFirst (set.progressiveViolations variations).head?
      (fun rank => set.Broken (2 :: rank)) := by
  have hresolved : ∀ seat path s i field name, set.Seats seat path s → s.Refers i field name →
      variations.contains name = true := by
    intro seat path s i field name hseat hrefers
    have hsilent := (unknownReferences_tellsFirst variations set).silent (by rw [hknown]; rfl)
    rw [OrderedMap.contains_iff_mem_keys]
    exact Decidable.byContradiction (fun hunknown =>
      hsilent _ _ (.reference hseat hrefers hunknown))
  refine .parts nofun (tellsFirst_selections (fun seat path s hseat => ?_) ?_)
  · cases s with
    | variation | percentage =>
        refine .none (fun rank v hbroken => ?_)
        cases hbroken with
        | dates hseat' | initial hseat' | final hseat' => exact nomatch (hseat.unique hseat').2
    | progressive ramp =>
        have hsame : ∀ path' ramp', set.Seats seat path' (.progressive ramp') →
            path' = path ∧ ramp' = ramp := fun path' ramp' hseat' =>
          (hseat'.unique hseat).imp_right Selection.progressive.inj
        rw [head?_rampViolations (hresolved _ _ _ _ _ _ hseat .initial)
          (hresolved _ _ _ _ _ _ hseat .final),
          ← Option.or_none (o := shareViolation? _ ramp.final.percentage)]
        refine .parts nofun (.cons (.ite ?_) (fun _ => .cons (.of_iff ?_)
          (fun _ => .cons (.of_iff ?_) (fun _ => .nil ?_))))
        · intro rank v
          rw [← Bool.not_eq_false, Instant.notAfter_eq_false_iff]
          constructor
          · intro hbroken
            cases hbroken with
            | dates hseat' hdates =>
                obtain ⟨rfl, rfl⟩ := hsame _ _ hseat'
                exact ⟨rfl, hdates, rfl⟩
          · rintro ⟨rfl, hdates, rfl⟩
            exact .dates hseat hdates
        · intro rank v
          rw [shareViolation?_eq_some_iff]
          constructor
          · intro hbroken
            cases hbroken with
            | initial hseat' hvalue hrange =>
                obtain ⟨rfl, rfl⟩ := hsame _ _ hseat'
                exact ⟨rfl, _, hvalue, hrange, rfl⟩
          · rintro ⟨rfl, value, hvalue, hrange, rfl⟩
            exact .initial hseat hvalue hrange
        · intro rank v
          rw [shareViolation?_eq_some_iff]
          constructor
          · intro hbroken
            cases hbroken with
            | final hseat' hvalue hrange =>
                obtain ⟨rfl, rfl⟩ := hsame _ _ hseat'
                exact ⟨rfl, _, hvalue, hrange, rfl⟩
          · rintro ⟨rfl, value, hvalue, hrange, rfl⟩
            exact .final hseat hvalue hrange
        · intro i rank v hfrom hbroken
          cases hbroken with
          | dates | initial | final => omega
  · intro seat rank v hbroken
    cases hbroken with
    | dates hseat | initial hseat | final hseat => exact ⟨_, _, hseat⟩

/-- What is told of the rules of a set whose references resolve. -/
theorem ruleSetViolations_tellsFirst {variations : Variations} {set : RuleSet}
    (hknown : set.unknownReferences variations = []) :
    TellsFirst (set.ruleSetViolations variations).head? set.Broken := by
  have hparts : ∀ v, ¬ set.Broken [] v := nofun
  rw [ruleSetViolations, List.append_assoc, List.head?_append, List.head?_append,
    ← Option.or_none (o := (set.progressiveViolations variations).head?)]
  refine .parts hparts (.cons set.nameAndQueryViolations_tellsFirst
    (fun _ => .cons set.weightViolations_tellsFirst
      (fun _ => .cons (progressiveViolations_tellsFirst hknown) (fun _ => .nil ?_))))
  intro i rank v hfrom hbroken
  cases hbroken with
  | unnamed | repeated | query | weight | dates | initial | final => omega

end RuleSet

namespace FlagConfig

theorem stepSets_getElem? (c : FlagConfig) (i : Nat) :
    c.stepSets[i]? = c.schedule[i]?.map (stepSet i) := by
  rw [stepSets, List.getElem?_map, List.getElem?_zipIdx, Option.map_map, Nat.zero_add]
  rfl

theorem variationViolations_tellsFirst (c : FlagConfig) :
    TellsFirst (variationViolations c.variations).head? (fun rank => c.Broken (0 :: rank)) := by
  rw [variationViolations, RuleSet.head?_ite_singleton]
  refine .ite (fun rank v => ?_)
  rw [OrderedMap.isEmpty_iff_keys]
  constructor
  · rintro ⟨hnone⟩
    exact ⟨rfl, hnone, rfl⟩
  · rintro ⟨rfl, hnone, rfl⟩
    exact .unvaried hnone

/-- The references of the top level come before those of the steps. -/
theorem references_tellsFirst (c : FlagConfig) :
    TellsFirst ((c.topLevel :: c.stepSets).flatMap (RuleSet.unknownReferences c.variations)).head?
      (fun rank => c.Broken (1 :: rank)) := by
  rw [List.head?_flatMap]
  refine .parts nofun (.findSome? (fun n set hset => ?_) ?_)
  · refine (RuleSet.unknownReferences_tellsFirst c.variations set).congr (fun rank v => ?_)
    cases n with
    | zero =>
        obtain rfl : c.topLevel = set := Option.some.inj hset
        constructor
        · intro hbroken
          cases hbroken with
          | reference hbroken => exact hbroken
        · exact .reference
    | succ i =>
        rw [List.getElem?_cons_succ, stepSets_getElem?] at hset
        obtain ⟨step, hstep, rfl⟩ := Option.map_eq_some_iff.1 hset
        constructor
        · intro hbroken
          cases hbroken with
          | stepReference hstep' hbroken =>
              obtain rfl := Option.some.inj (hstep.symm.trans hstep')
              exact hbroken
        · exact .stepReference hstep
  · intro n rank v hbroken
    rw [List.length_cons, stepSets, List.length_map, List.length_zipIdx]
    cases hbroken with
    | reference => exact Nat.zero_lt_succ _
    | stepReference hstep => exact Nat.succ_lt_succ (List.getElem?_eq_some_iff.1 hstep).1

theorem stepDateViolations_tellsFirst {c : FlagConfig} {index : Nat} {steps : List ScheduledStep}
    (hsteps : c.schedule.drop index = steps) :
    TellsFirst (stepDateViolations index steps).head?
      (Numbered index (fun i rank => c.Broken (3 :: i :: rank))) := by
  have hget : ∀ i, index ≤ i → c.schedule[i]? = steps[i - index]? := by
    intro i hfrom
    rw [← hsteps, List.getElem?_drop, Nat.add_sub_cancel' hfrom]
  induction steps generalizing index with
  | nil =>
      refine .nil (fun i rank v hfrom hbroken => ?_)
      cases hbroken with
      | stepDate hearlier =>
          rw [hget i hfrom] at hearlier
          contradiction
  | cons earlier rest ih =>
      cases rest with
      | nil =>
          refine .nil (fun i rank v hfrom hbroken => ?_)
          cases hbroken with
          | stepDate _ hlater =>
              rw [hget (i + 1) (Nat.le_succ_of_le hfrom), Nat.sub_add_comm hfrom] at hlater
              contradiction
      | cons later rest =>
          have hrest : c.schedule.drop (index + 1) = later :: rest := by
            rw [← List.tail_drop, hsteps]
            rfl
          have hearlier : c.schedule[index]? = some earlier := by
            rw [← List.head?_drop, hsteps]
            rfl
          have hlater : c.schedule[index + 1]? = some later := by
            rw [← List.head?_drop, hrest]
            rfl
          rw [stepDateViolations, List.head?_append, RuleSet.head?_ite_singleton]
          refine .cons (.ite (fun rank v => ?_)) (fun _ => ih hrest ?_)
          · rw [← Bool.not_eq_false, Instant.notAfter_eq_false_iff]
            constructor
            · intro hbroken
              cases hbroken with
              | stepDate hearlier' hlater' hdates =>
                  obtain rfl := Option.some.inj (hearlier.symm.trans hearlier')
                  obtain rfl := Option.some.inj (hlater.symm.trans hlater')
                  exact ⟨rfl, hdates, rfl⟩
            · rintro ⟨rfl, hdates, rfl⟩
              exact .stepDate hearlier hlater hdates
          · intro i hfrom
            rw [← hrest, List.getElem?_drop, Nat.add_sub_cancel' hfrom]

theorem stepDates_tellsFirst (c : FlagConfig) :
    TellsFirst (stepDateViolations 0 c.schedule).head? (fun rank => c.Broken (3 :: rank)) :=
  .parts nofun (stepDateViolations_tellsFirst List.drop_zero)

theorem stepRules_tellsFirst {c : FlagConfig}
    (hknown : ∀ set ∈ c.stepSets, set.unknownReferences c.variations = []) :
    TellsFirst (c.stepSets.flatMap (RuleSet.ruleSetViolations c.variations)).head?
      (fun rank => c.Broken (4 :: rank)) := by
  rw [List.head?_flatMap]
  refine .parts nofun (.findSome? (fun i set hset => ?_) ?_)
  · refine (RuleSet.ruleSetViolations_tellsFirst (hknown set (List.mem_of_getElem? hset))).congr
      (fun rank v => ?_)
    rw [stepSets_getElem?] at hset
    obtain ⟨step, hstep, rfl⟩ := Option.map_eq_some_iff.1 hset
    constructor
    · intro hbroken
      cases hbroken with
      | stepRules hstep' hbroken =>
          obtain rfl := Option.some.inj (hstep.symm.trans hstep')
          exact hbroken
    · exact .stepRules hstep
  · intro i rank v hbroken
    rw [stepSets, List.length_map, List.length_zipIdx]
    cases hbroken with
    | stepRules hstep => exact (List.getElem?_eq_some_iff.1 hstep).1

theorem experimentViolations_tellsFirst (c : FlagConfig) :
    TellsFirst c.experimentViolations.head? (fun rank => c.Broken (5 :: rank)) := by
  have hnone : (∀ start finish, c.experiment ≠ some ⟨some start, some finish⟩) →
      ∀ rank v, ¬ c.Broken (5 :: rank) v := by
    intro hopen rank v hbroken
    cases hbroken with
    | experiment hexperiment => exact hopen _ _ hexperiment
  rw [experimentViolations]
  split
  · next start finish hexperiment =>
    rw [RuleSet.head?_ite_singleton]
    refine .ite (fun rank v => ?_)
    rw [← Bool.not_eq_false, Instant.notAfter_eq_false_iff]
    constructor
    · intro hbroken
      cases hbroken with
      | experiment hexperiment' hdates =>
          obtain ⟨hstart, hfinish⟩ :=
            Experiment.mk.inj (Option.some.inj (hexperiment.symm.trans hexperiment'))
          obtain rfl := Option.some.inj hstart
          obtain rfl := Option.some.inj hfinish
          exact ⟨rfl, hdates, rfl⟩
    · rintro ⟨rfl, hdates, rfl⟩
      exact .experiment hexperiment hdates
  · next hopen => exact .none (hnone hopen)

theorem violations_tellsFirst (c : FlagConfig) : TellsFirst c.violations.head? c.Broken := by
  have hparts : ∀ v, ¬ c.Broken [] v := nofun
  simp only [violations, List.append_assoc]
  rw [List.head?_append, List.head?_append, List.head?_append, List.head?_append, List.head?_append,
    ← Option.or_none (o := c.experimentViolations.head?)]
  refine .parts hparts (.cons c.variationViolations_tellsFirst
    (fun _ => .cons c.references_tellsFirst (fun hreferences => ?_)))
  -- only sets whose references resolve are asked for the rest
  rw [List.head?_eq_none_iff, List.flatMap_eq_nil_iff, List.forall_mem_cons] at hreferences
  have htop : TellsFirst (c.topLevel.ruleSetViolations c.variations).head?
      (fun rank => c.Broken (2 :: rank)) := by
    refine (RuleSet.ruleSetViolations_tellsFirst hreferences.1).congr (fun rank v => ?_)
    constructor
    · intro hbroken
      cases hbroken with
      | rules hbroken => exact hbroken
    · exact .rules
  refine .cons htop (fun _ => .cons c.stepDates_tellsFirst (fun _ =>
    .cons (stepRules_tellsFirst hreferences.2) (fun _ =>
      .cons c.experimentViolations_tellsFirst (fun _ => .nil ?_))))
  intro i rank v hfrom hbroken
  cases hbroken with
  | unvaried | reference | stepReference | rules | stepDate | stepRules | experiment => omega

/-- Validation reports a violation just if the configuration is broken so at some rank and
keeps all that stands at the ranks before. -/
theorem validate_eq_error_iff (c : FlagConfig) (v : Violation) :
    c.validate = .error v ↔
      ∃ rank, c.Broken rank v ∧ ∀ earlier w, earlier < rank → ¬ c.Broken earlier w := by
  rw [← c.violations_tellsFirst.eq_some_iff, validate]
  cases c.violations with
  | nil => simp
  | cons first rest =>
      rw [List.head?_cons, Option.some.injEq]
      exact Except.error.injEq first v ▸ Iff.rfl

/-- A step that names no variation is told before a rule without a name at the top level. -/
example : fault? { boolean true with
      targeting := [⟨" ", "", .variation "enabled", false⟩],
      schedule := [⟨⟨⟨2018, 1, 1, by decide⟩, 0, 0, by decide⟩, none, .variation "gone"⟩]
    : FlagConfig }.validate =
      some ⟨"scheduledRollout[0].defaultRule.variation", .unknownVariation "gone"⟩ := by
  decide +kernel

end FlagConfig

end FlagGovernance
