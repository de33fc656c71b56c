import FlagGovernance.Config.Validate
import FlagGovernance.Proofs.Lookup
/-
What a valid configuration is.

`WellFormed` says it of the configuration itself: no paths, no order of checks,
each demand over everything that it is about.  Validation accepts just the
well-formed configurations.
-/

namespace FlagGovernance

namespace Instant

instance : Std.TransOrd Instant :=
  inferInstanceAs (Std.TransCmp (compareLex (compareOn (fun i : Instant => i.date.year))
    (compareLex (compareOn (fun i : Instant => i.date.month))
      (compareLex (compareOn (fun i : Instant => i.date.day))
        (compareLex (compareOn Instant.second) (compareOn Instant.nano))))))

theorem compare_def (a b : Instant) :
    compare a b =
      (compare a.date.year b.date.year).then ((compare a.date.month b.date.month).then
        ((compare a.date.day b.date.day).then
          ((compare a.second b.second).then (compare a.nano b.nano)))) := rfl

instance : Std.LawfulEqOrd Instant where
  eq_of_compare := by
    rintro ⟨⟨year, month, day, _⟩, second, nano, _⟩
      ⟨⟨year', month', day', _⟩, second', nano', _⟩ heq
    simp only [compare_def, Ordering.then_eq_eq, Std.LawfulEqOrd.compare_eq_iff_eq] at heq
    obtain ⟨rfl, rfl, rfl, rfl, rfl⟩ := heq
    rfl

theorem notAfter_eq_false_iff (a b : Instant) : b.notAfter a = false ↔ a.before b = true := by
  simp only [notAfter, before, bne_eq_false_iff_eq, beq_iff_eq]
  exact Std.OrientedCmp.gt_iff_lt

theorem before_trans {a b c : Instant} (hab : a.before b = true) (hbc : b.before c = true) :
    a.before c = true := by
  simp only [before, beq_iff_eq] at hab hbc ⊢
  exact Std.TransCmp.lt_trans hab hbc

end Instant

structure RampEnd.WellFormed (rampEnd : RampEnd) : Prop where
  in_range : ∀ value, rampEnd.percentage = some value →
    Double.zero.le value = true ∧ value.le (.ofNat 100) = true

structure Ramp.WellFormed (ramp : Ramp) : Prop where
  forward : ramp.initial.date.before ramp.final.date = true
  initial : ramp.initial.WellFormed
  final : ramp.final.WellFormed

/-- Every weight is a number and not below zero. -/
structure Split.WellFormed (split : Split) : Prop where
  not_negative : ∀ weight ∈ split.values, weight.lt .zero = false
  number : ∀ weight ∈ split.values, weight.isNaN = false

namespace Selection

/-- The selection can come out at the variation. -/
def Names : Selection → String → Prop
  | .variation name, other => other = name
  | .percentage split, other => other ∈ split.keys
  | .progressive ramp, other => other = ramp.initial.variation ∨ other = ramp.final.variation

/-- Every variation that is named is there. -/
def Known (variations : Variations) (selection : Selection) : Prop :=
  ∀ name, selection.Names name → name ∈ variations.keys

structure WellFormed (variations : Variations) (selection : Selection) : Prop where
  known : selection.Known variations
  weights : ∀ split, selection = .percentage split → Split.WellFormed split
  ramp : ∀ ramp, selection = .progressive ramp → ramp.WellFormed

end Selection

namespace TargetingRule

/-- The name that counts. -/
def trimmedName (rule : TargetingRule) : String := Text.trim rule.name

structure WellFormed (variations : Variations) (rule : TargetingRule) : Prop where
  selection : rule.selection.WellFormed variations
  named : rule.trimmedName ≠ ""
  query : ∃ expr, Query.parse rule.query = .ok expr

end TargetingRule

/-- Rules in a row and the default after them. -/
structure RulesWellFormed (variations : Variations) (rules : List TargetingRule)
    (defaultRule : Selection) : Prop where
  default_rule : defaultRule.WellFormed variations
  each_rule : ∀ rule ∈ rules, rule.WellFormed variations
  distinct : (rules.map TargetingRule.trimmedName).Nodup

structure FlagConfig.WellFormed (c : FlagConfig) : Prop where
  varied : c.variations.keys ≠ []
  top_level : RulesWellFormed c.variations c.targeting c.defaultRule
  each_step : ∀ step ∈ c.schedule,
    RulesWellFormed c.variations (step.targeting.getD []) step.defaultRule
  in_order : c.schedule.Pairwise (fun earlier later => earlier.date.before later.date = true)
  experiment : ∀ start finish, c.experiment = some ⟨some start, some finish⟩ →
    start.before finish = true

/-- A demand on the elements is one on the elements with their places. -/
theorem forall_mem_zipIdx_iff {α : Type} (items : List α) (P : α → Prop) :
    (∀ item ∈ items.zipIdx, P item.1) ↔ ∀ item ∈ items, P item := by
  conv => rhs; rw [← List.zipIdx_map_fst 0 items]
  rw [List.forall_mem_map]

/-- A violation told under a condition is told unless the condition fails. -/
theorem ite_none_some_eq_none_iff {α : Type} {p : Prop} [Decidable p] (a : α) :
    (if p then none else some a) = none ↔ p := by
  split <;> simp_all

theorem ite_singleton_eq_nil_iff {α : Type} (b : Bool) (a : α) :
    (if b = true then [a] else []) = [] ↔ b = false := by
  cases b <;> simp

namespace RuleSet

/-- A check of selections finds nothing if it finds nothing at the default and at
every rule. -/
theorem selections_flatMap_eq_nil_iff (set : RuleSet) (P : Selection → Prop)
    {check : String × Selection → List Violation}
    (hcheck : ∀ path selection, check (path, selection) = [] ↔ P selection) :
    set.selections.flatMap check = [] ↔
      P set.defaultRule ∧ ∀ rule ∈ set.targeting, P rule.selection := by
  rw [List.flatMap_eq_nil_iff, selections, List.forall_mem_cons, hcheck, List.forall_mem_map]
  simp only [hcheck]
  rw [forall_mem_zipIdx_iff set.targeting (fun rule => P rule.selection)]

theorem unknownReferences_eq_nil_iff (variations : Variations) (set : RuleSet) :
    set.unknownReferences variations = [] ↔
      set.defaultRule.Known variations ∧
      ∀ rule ∈ set.targeting, rule.selection.Known variations := by
  apply set.selections_flatMap_eq_nil_iff (Selection.Known variations)
  intro path selection
  simp only [List.filterMap_eq_nil_iff, ite_none_some_eq_none_iff,
    OrderedMap.contains_iff_mem_keys]
  cases selection with
  | variation name => simp [Selection.references, Selection.Known, Selection.Names]
  | percentage split => simp [Selection.references, Selection.Known, Selection.Names]
  | progressive ramp => simp [Selection.references, Selection.Known, Selection.Names]

theorem ruleViolation_eq_none_iff (path : String) (before : List String) (rule : TargetingRule) :
    ruleViolation path before rule = none ↔
      rule.trimmedName ≠ "" ∧ rule.trimmedName ∉ before ∧
        ∃ expr, Query.parse rule.query = .ok expr := by
  have hempty : (Text.trim rule.name).isEmpty = true ↔ rule.trimmedName = "" := String.isEmpty_iff
  rw [ruleViolation]
  by_cases hnamed : rule.trimmedName = ""
  · simp [hempty.2 hnamed, hnamed]
  · have hname : (Text.trim rule.name).isEmpty = false := by
      rw [← Bool.not_eq_true, hempty]
      exact hnamed
    by_cases hbefore : Text.trim rule.name ∈ before
    · simp [hname, TargetingRule.trimmedName, hbefore]
    · cases hquery : Query.parse rule.query with
      | ok expr => simpa [hname, TargetingRule.trimmedName, hbefore] using hnamed
      | error e => simp [hname, hbefore]

/-- The rules from a place on are in order if each is and no name is used again,
neither before nor among them. -/
theorem ruleViolations_eq_nil_iff (set : RuleSet) (index : Nat) (before : List String)
    (rules : List TargetingRule) :
    set.ruleViolations index before rules = [] ↔
      (∀ rule ∈ rules, rule.trimmedName ≠ "" ∧ ∃ expr, Query.parse rule.query = .ok expr) ∧
      (∀ rule ∈ rules, rule.trimmedName ∉ before) ∧
      (rules.map TargetingRule.trimmedName).Nodup := by
  induction rules generalizing index before with
  | nil => simp [ruleViolations]
  | cons rule rest ih =>
      rw [ruleViolations, List.append_eq_nil_iff, Option.toList_eq_nil_iff,
        ruleViolation_eq_none_iff, ih, List.forall_mem_cons, List.forall_mem_cons, List.map_cons,
        List.nodup_cons]
      have hsplit : (∀ later ∈ rest, later.trimmedName ∉ before ++ [Text.trim rule.name]) ↔
          (∀ later ∈ rest, later.trimmedName ∉ before) ∧
            rule.trimmedName ∉ rest.map TargetingRule.trimmedName := by
        simp only [List.mem_append, List.mem_singleton, not_or, forall_and, List.mem_map,
          not_exists, not_and]
        rfl
      rw [hsplit]
      constructor
      · rintro ⟨⟨hnamed, hnew, hquery⟩, hrest, ⟨hbefore, hagain⟩, hdistinct⟩
        exact ⟨⟨⟨hnamed, hquery⟩, hrest⟩, ⟨hnew, hbefore⟩, hagain, hdistinct⟩
      · rintro ⟨⟨⟨hnamed, hquery⟩, hrest⟩, ⟨hnew, hbefore⟩, hagain, hdistinct⟩
        exact ⟨⟨hnamed, hnew, hquery⟩, hrest, ⟨hbefore, hagain⟩, hdistinct⟩

theorem nameAndQueryViolations_eq_nil_iff (set : RuleSet) :
    set.nameAndQueryViolations = [] ↔
      (∀ rule ∈ set.targeting,
        rule.trimmedName ≠ "" ∧ ∃ expr, Query.parse rule.query = .ok expr) ∧
      (set.targeting.map TargetingRule.trimmedName).Nodup := by
  rw [nameAndQueryViolations, ruleViolations_eq_nil_iff]
  simp

theorem weightViolations_eq_nil_iff (set : RuleSet) :
    set.weightViolations = [] ↔
      (∀ split, set.defaultRule = .percentage split → Split.WellFormed split) ∧
      ∀ rule ∈ set.targeting, ∀ split, rule.selection = .percentage split →
        Split.WellFormed split := by
  apply set.selections_flatMap_eq_nil_iff
    (fun selection => ∀ split, selection = .percentage split → Split.WellFormed split)
  intro path selection
  cases selection with
  | variation | progressive => simp
  | percentage split =>
      have hweights : Split.WellFormed split ↔
          ∀ entry ∈ split.entries, badWeight entry.2 = false := by
        rw [← List.forall_mem_map (f := Prod.snd) (P := fun weight => badWeight weight = false)]
        simp only [badWeight, Bool.or_eq_false_iff, forall_and]
        exact ⟨fun h => ⟨h.not_negative, h.number⟩, fun h => ⟨h.1, h.2⟩⟩
      simp [List.filterMap_eq_nil_iff, hweights]

theorem rampEnd_percentage_eq_none_iff (rampEnd : RampEnd) (violation : Double → Violation) :
    (match rampEnd.percentage with
      | some value => if isPercentage value then none else some (violation value)
      | none => none) = none ↔ rampEnd.WellFormed := by
  obtain ⟨variation, percentage, date⟩ := rampEnd
  cases percentage with
  | none => exact iff_of_true rfl ⟨nofun⟩
  | some value =>
      simp only [ite_none_some_eq_none_iff, isPercentage, Bool.and_eq_true]
      exact ⟨fun h => ⟨fun _ heq => Option.some.inj heq ▸ h⟩, fun h => h.in_range value rfl⟩

/-- A ramp is asked for its variations once more. -/
theorem rampViolations_eq_nil_iff (variations : Variations) (path : String) (ramp : Ramp) :
    rampViolations variations path ramp = [] ↔
      (Selection.progressive ramp).Known variations ∧ ramp.WellFormed := by
  have hknown : (Selection.progressive ramp).Known variations ↔
      ramp.initial.variation ∈ variations.keys ∧ ramp.final.variation ∈ variations.keys := by
    simp [Selection.Known, Selection.Names]
  have hwell : ramp.WellFormed ↔ ramp.final.date.notAfter ramp.initial.date = false ∧
      ramp.initial.WellFormed ∧ ramp.final.WellFormed := by
    rw [Instant.notAfter_eq_false_iff]
    exact ⟨fun h => ⟨h.forward, h.initial, h.final⟩, fun h => ⟨h.1, h.2.1, h.2.2⟩⟩
  simp only [rampViolations, List.append_eq_nil_iff, List.filterMap_eq_nil_iff,
    List.forall_mem_cons, List.not_mem_nil, false_imp_iff, implies_true, and_true,
    ite_none_some_eq_none_iff, ite_singleton_eq_nil_iff, OrderedMap.contains_iff_mem_keys]
  have hinitial := rampEnd_percentage_eq_none_iff ramp.initial
    (fun value => ⟨path ++ "." ++ "initial" ++ ".percentage", .percentageOutOfRange value⟩)
  have hfinal := rampEnd_percentage_eq_none_iff ramp.final
    (fun value => ⟨path ++ "." ++ "end" ++ ".percentage", .percentageOutOfRange value⟩)
  rw [hknown, hwell, and_assoc]
  exact and_congr_right' (and_congr_right' (and_congr hinitial hfinal))

theorem progressiveViolations_eq_nil_iff (variations : Variations) (set : RuleSet) :
    set.progressiveViolations variations = [] ↔
      (∀ ramp, set.defaultRule = .progressive ramp →
        set.defaultRule.Known variations ∧ ramp.WellFormed) ∧
      ∀ rule ∈ set.targeting, ∀ ramp, rule.selection = .progressive ramp →
        rule.selection.Known variations ∧ ramp.WellFormed := by
  apply set.selections_flatMap_eq_nil_iff (fun selection => ∀ ramp,
    selection = .progressive ramp → selection.Known variations ∧ ramp.WellFormed)
  intro path selection
  cases selection with
  | variation | percentage => simp
  | progressive ramp => simp [rampViolations_eq_nil_iff]

/-- A rule set in which every reference resolves and nothing else is wrong. -/
theorem violations_eq_nil_iff (variations : Variations) (set : RuleSet) :
    (set.unknownReferences variations = [] ∧ set.ruleSetViolations variations = []) ↔
      RulesWellFormed variations set.targeting set.defaultRule := by
  simp only [ruleSetViolations, List.append_eq_nil_iff, unknownReferences_eq_nil_iff,
    nameAndQueryViolations_eq_nil_iff, weightViolations_eq_nil_iff,
    progressiveViolations_eq_nil_iff]
  constructor
  · rintro ⟨⟨hdefault, hknown⟩, ⟨⟨hrules, hdistinct⟩, hweight, hweights⟩, hramp, hramps⟩
    refine ⟨⟨hdefault, hweight, fun ramp heq => (hramp ramp heq).2⟩, fun rule hmem => ?_,
      hdistinct⟩
    exact ⟨⟨hknown rule hmem, hweights rule hmem, fun ramp heq => (hramps rule hmem ramp heq).2⟩,
      (hrules rule hmem).1, (hrules rule hmem).2⟩
  · rintro ⟨hdefault, hrules, hdistinct⟩
    refine ⟨⟨hdefault.known, fun rule hmem => (hrules rule hmem).selection.known⟩,
      ⟨⟨fun rule hmem => ⟨(hrules rule hmem).named, (hrules rule hmem).query⟩, hdistinct⟩,
        hdefault.weights, fun rule hmem => (hrules rule hmem).selection.weights⟩,
      fun ramp heq => ⟨hdefault.known, hdefault.ramp ramp heq⟩, fun rule hmem ramp heq => ?_⟩
    exact ⟨(hrules rule hmem).selection.known, (hrules rule hmem).selection.ramp ramp heq⟩

end RuleSet

namespace FlagConfig

/-- Each step after the one before it is each step after all before it. -/
theorem stepDateViolations_eq_nil_iff (index : Nat) (steps : List ScheduledStep) :
    stepDateViolations index steps = [] ↔
      steps.Pairwise (fun earlier later => earlier.date.before later.date = true) := by
  induction steps generalizing index with
  | nil => simp [stepDateViolations]
  | cons first rest ih =>
      cases rest with
      | nil => simp [stepDateViolations]
      | cons second rest =>
          rw [stepDateViolations, List.append_eq_nil_iff, ite_singleton_eq_nil_iff,
            Instant.notAfter_eq_false_iff, ih, List.pairwise_cons (a := first)]
          constructor
          · rintro ⟨hfirst, hordered⟩
            refine ⟨?_, hordered⟩
            intro later hlater
            rcases List.mem_cons.1 hlater with rfl | hlater
            · exact hfirst
            · exact Instant.before_trans hfirst ((List.pairwise_cons.1 hordered).1 later hlater)
          · rintro ⟨hfirst, hordered⟩
            exact ⟨hfirst second List.mem_cons_self, hordered⟩

theorem experimentViolations_eq_nil_iff (c : FlagConfig) :
    c.experimentViolations = [] ↔ ∀ start finish, c.experiment = some ⟨some start, some finish⟩ →
      start.before finish = true := by
  obtain ⟨variations, targeting, defaultRule, schedule, experiment⟩ := c
  rcases experiment with _ | ⟨_ | start, _ | finish⟩
  case some.some.some =>
    rw [experimentViolations, ite_singleton_eq_nil_iff, Instant.notAfter_eq_false_iff]
    simp
  all_goals simp [experimentViolations]

theorem variationViolations_eq_nil_iff (variations : Variations) :
    variationViolations variations = [] ↔ variations.keys ≠ [] := by
  rw [variationViolations, ite_singleton_eq_nil_iff]
  simp [OrderedMap.isEmpty, OrderedMap.keys]

/-- A demand on the rules of every scheduled step. -/
theorem forall_mem_stepSets_iff (c : FlagConfig) (P : List TargetingRule → Selection → Prop) :
    (∀ set ∈ c.stepSets, P set.targeting set.defaultRule) ↔
      ∀ step ∈ c.schedule, P (step.targeting.getD []) step.defaultRule := by
  rw [stepSets, List.forall_mem_map]
  exact forall_mem_zipIdx_iff c.schedule (fun step => P (step.targeting.getD []) step.defaultRule)

theorem violations_eq_nil_iff (c : FlagConfig) : c.violations = [] ↔ c.WellFormed := by
  have htop := c.topLevel.violations_eq_nil_iff c.variations
  have hsteps := c.forall_mem_stepSets_iff (RulesWellFormed c.variations)
  simp only [← RuleSet.violations_eq_nil_iff, forall_and] at hsteps
  simp only [violations, List.append_eq_nil_iff, variationViolations_eq_nil_iff,
    List.flatMap_cons, List.flatMap_eq_nil_iff, stepDateViolations_eq_nil_iff,
    experimentViolations_eq_nil_iff]
  constructor
  · rintro ⟨⟨⟨⟨⟨hvaried, htopNames, hstepNames⟩, htopRules⟩, hordered⟩, hstepRules⟩, hexperiment⟩
    exact ⟨hvaried, htop.1 ⟨htopNames, htopRules⟩, hsteps.1 ⟨hstepNames, hstepRules⟩, hordered,
      hexperiment⟩
  · rintro ⟨hvaried, htopLevel, heachStep, hordered, hexperiment⟩
    obtain ⟨htopNames, htopRules⟩ := htop.2 htopLevel
    obtain ⟨hstepNames, hstepRules⟩ := hsteps.2 heachStep
    exact ⟨⟨⟨⟨⟨hvaried, htopNames, hstepNames⟩, htopRules⟩, hordered⟩, hstepRules⟩, hexperiment⟩

/-- Validation accepts just the well-formed configurations. -/
theorem validate_eq_ok_iff (c : FlagConfig) : c.validate = .ok () ↔ c.WellFormed := by
  rw [← violations_eq_nil_iff, validate]
  cases c.violations <;> simp

end FlagConfig

end FlagGovernance
