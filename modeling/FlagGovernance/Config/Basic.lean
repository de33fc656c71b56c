import FlagGovernance.Json.Basic
import FlagGovernance.Time.Instant
/-
Flag configurations.

A configuration names the variations of a flag and says how one of them is
selected: by the first matching rule of an ordered list, else by the default.
Scheduled steps replace rules and default from a date on.
-/

namespace FlagGovernance

/-- The value that a flag can take. -/
inductive Variation
  | bool (value : Bool)
  | number (value : Number)
  | string (value : String)
  | document (value : Json)
deriving Repr

/-- The value that a document stands for. -/
def Variation.ofJson : Json → Variation
  | .bool b => .bool b
  | .number n => .number n
  | .string s => .string s
  | v => .document v

/-- A double as a value; what is not finite has no JSON form and is `null`. -/
def Variation.ofDouble (d : Double) : Variation :=
  if d.isFinite then .number (.real d) else .document .null

abbrev Variations := OrderedMap String Variation

/-- Weights by variation. They need not add up to anything. -/
abbrev Split := OrderedMap String Double

/-- One end of a ramp. -/
structure RampEnd where
  variation : String
  percentage : Option Double
  date : Instant
deriving DecidableEq, Repr

/-- A ramp from one variation to another between two dates. -/
structure Ramp where
  initial : RampEnd
  final : RampEnd
deriving DecidableEq, Repr

/-- How a rule selects a variation. -/
inductive Selection
  | variation (name : String)
  | percentage (split : Split)
  | progressive (ramp : Ramp)
deriving DecidableEq, Repr

/-- The three ways to select. -/
inductive Mode
  | variation
  | percentage
  | progressive
deriving DecidableEq, Repr

def Mode.name : Mode → String
  | .variation => "variation"
  | .percentage => "percentage"
  | .progressive => "progressiveRollout"

def Selection.mode : Selection → Mode
  | .variation _ => .variation
  | .percentage _ => .percentage
  | .progressive _ => .progressive

/-- The variations that a selection names, each with the path, within the
selection, of the place that names it. -/
def Selection.references : Selection → List (String × String)
  | .variation name => [("variation", name)]
  | .percentage split => split.keys.map (fun name => ("percentage." ++ name, name))
  | .progressive ramp =>
    [("progressiveRollout.initial.variation", ramp.initial.variation),
     ("progressiveRollout.end.variation", ramp.final.variation)]

/-- A named condition and what it selects. -/
structure TargetingRule where
  name : String
  query : String
  selection : Selection
  disable : Bool
deriving DecidableEq, Repr

/-- New rules and a new default from a date on. -/
structure ScheduledStep where
  date : Instant
  targeting : Option (List TargetingRule)
  defaultRule : Selection
deriving DecidableEq, Repr

/-- The time of an experiment, open at either end. -/
structure Experiment where
  start : Option Instant
  finish : Option Instant
deriving DecidableEq, Repr

structure FlagConfig where
  variations : Variations
  targeting : List TargetingRule
  defaultRule : Selection
  schedule : List ScheduledStep
  experiment : Option Experiment
  disable : Bool
  trackEvents : Bool
  version : Option String
  bucketingKey : Option String
  metadata : OrderedMap String Json
deriving Repr

namespace FlagConfig

/-- The configuration of some variations and a default, with nothing else
set. -/
def plain (variations : Variations) (defaultRule : Selection) : FlagConfig :=
  { variations, defaultRule, targeting := [], schedule := [], experiment := none,
    disable := false, trackEvents := true, version := none, bucketingKey := none, metadata := ∅ }

/-- A flag that is on or off. -/
def boolean (on : Bool) : FlagConfig :=
  plain (.ofList [("enabled", .bool true), ("disabled", .bool false)])
    (.variation (if on then "enabled" else "disabled"))

def withVariation (c : FlagConfig) (name : String) (value : Variation) : FlagConfig :=
  { c with variations := c.variations.insert name value }

def withRule (c : FlagConfig) (rule : TargetingRule) : FlagConfig :=
  { c with targeting := c.targeting ++ [rule] }

def withStep (c : FlagConfig) (step : ScheduledStep) : FlagConfig :=
  { c with schedule := c.schedule ++ [step] }

end FlagConfig

end FlagGovernance
