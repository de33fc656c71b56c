import FlagGovernance.Config.Violation
/-
The rules that a typed configuration must keep.

`violations` lists everything that is broken, in a fixed order: the variations,
all references, the rules of the top level (names and queries, weights, ramps),
the dates of the schedule, the rules of each step, the experiment. A
configuration is valid if the list is empty; otherwise its head is reported.
-/

namespace FlagGovernance

/-- A rule list and a default, and the path in front of their fields. -/
structure RuleSet where
  path : String
  targeting : List TargetingRule
  defaultRule : Selection
deriving Repr

namespace RuleSet

def rulePath (set : RuleSet) (index : Nat) : String :=
  set.path ++ "targeting[" ++ toString index ++ "]"

/-- Each selection with its path: the default, then the rules in order. -/
def selections (set : RuleSet) : List (String × Selection) :=
  (set.path ++ "defaultRule", set.defaultRule) ::
    set.targeting.zipIdx.map (fun r => (set.rulePath r.2, r.1.selection))

/-- Names that are not among the variations. -/
def unknownReferences (variations : Variations) (set : RuleSet) : List Violation :=
  set.selections.flatMap (fun s =>
    s.2.references.filterMap (fun ref =>
      if variations.contains ref.2 then none
      else some ⟨s.1 ++ "." ++ ref.1, .unknownVariation ref.2⟩))

/-- What is wrong with the name or else the query of a rule that comes after
rules of the names `before`. -/
def ruleViolation (path : String) (before : List String) (rule : TargetingRule) :
    Option Violation :=
  let name := Text.trim rule.name
  if name.isEmpty then some ⟨path ++ ".name", .missingRuleName⟩
  else if name ∈ before then some ⟨path ++ ".name", .duplicateRuleName name⟩
  else
    match Query.parse rule.query with
    | .ok _ => none
    | .error e => some ⟨path ++ ".query", .invalidQuery e⟩

/-- The rules from a place on, given the names before it. -/
def ruleViolations (set : RuleSet) : Nat → List String → List TargetingRule → List Violation
  | _, _, [] => []
  | index, before, rule :: rest =>
    (ruleViolation (set.rulePath index) before rule).toList ++
      ruleViolations set (index + 1) (before ++ [Text.trim rule.name]) rest

/-- Names that are blank or repeated, and queries that do not parse. -/
def nameAndQueryViolations (set : RuleSet) : List Violation :=
  ruleViolations set 0 [] set.targeting

/-- A weight is no number or below zero. -/
def badWeight (weight : Double) : Bool :=
  weight.lt .zero || weight.isNaN

def weightViolations (set : RuleSet) : List Violation :=
  set.selections.flatMap (fun s =>
    match s.2 with
    | .percentage split =>
      split.entries.filterMap (fun w =>
        if badWeight w.2 then
          some ⟨s.1 ++ ".percentage." ++ w.1, .negativePercentage w.1 w.2⟩
        else none)
    | _ => [])

/-- A number from zero to a hundred. -/
def isPercentage (value : Double) : Bool :=
  Double.zero.le value && value.le (.ofNat 100)

/-- What is wrong with a ramp: variations, then dates, then percentages. -/
def rampViolations (variations : Variations) (path : String) (ramp : Ramp) : List Violation :=
  let ends := [("initial", ramp.initial), ("end", ramp.final)]
  ends.filterMap (fun e =>
    if variations.contains e.2.variation then none
    else some ⟨path ++ "." ++ e.1 ++ ".variation", .unknownVariation e.2.variation⟩) ++
  (if ramp.final.date.notAfter ramp.initial.date then
    [⟨path ++ ".end.date", .endNotAfterStart⟩] else []) ++
  ends.filterMap (fun e =>
    match e.2.percentage with
    | some value =>
      if isPercentage value then none
      else some ⟨path ++ "." ++ e.1 ++ ".percentage", .percentageOutOfRange value⟩
    | none => none)

def progressiveViolations (variations : Variations) (set : RuleSet) : List Violation :=
  set.selections.flatMap (fun s =>
    match s.2 with
    | .progressive ramp => rampViolations variations (s.1 ++ ".progressiveRollout") ramp
    | _ => [])

/-- Everything about the rules but their references. -/
def ruleSetViolations (variations : Variations) (set : RuleSet) : List Violation :=
  set.nameAndQueryViolations ++ set.weightViolations ++ set.progressiveViolations variations

end RuleSet

namespace FlagConfig

def topLevel (c : FlagConfig) : RuleSet :=
  ⟨"", c.targeting, c.defaultRule⟩

def stepPath (index : Nat) : String :=
  "scheduledRollout[" ++ toString index ++ "]"

/-- The rule sets of the scheduled steps, in order. -/
def stepSets (c : FlagConfig) : List RuleSet :=
  c.schedule.zipIdx.map (fun s =>
    ⟨stepPath s.2 ++ ".", s.1.targeting.getD [], s.1.defaultRule⟩)

/-- Steps from a place on whose date is not after that of the step before. -/
def stepDateViolations : Nat → List ScheduledStep → List Violation
  | index, a :: b :: rest =>
    (if b.date.notAfter a.date then
      [⟨stepPath (index + 1) ++ ".date", .stepNotAfterPrevious⟩] else []) ++
    stepDateViolations (index + 1) (b :: rest)
  | _, _ => []

def experimentViolations (c : FlagConfig) : List Violation :=
  match c.experiment with
  | some ⟨some start, some finish⟩ =>
    if finish.notAfter start then [⟨"experimentation.end", .endNotAfterStart⟩] else []
  | _ => []

def variationViolations (variations : Variations) : List Violation :=
  if variations.isEmpty then [⟨"variations", .noVariations⟩] else []

/-- Everything that is broken, in the order of the rules. -/
def violations (c : FlagConfig) : List Violation :=
  variationViolations c.variations ++
  (c.topLevel :: c.stepSets).flatMap (RuleSet.unknownReferences c.variations) ++
  c.topLevel.ruleSetViolations c.variations ++
  stepDateViolations 0 c.schedule ++
  c.stepSets.flatMap (RuleSet.ruleSetViolations c.variations) ++
  c.experimentViolations

/-- The first broken rule, if there is one. -/
def validate (c : FlagConfig) : Except Violation Unit :=
  match c.violations with
  | [] => .ok ()
  | first :: _ => .error first

end FlagConfig

end FlagGovernance
