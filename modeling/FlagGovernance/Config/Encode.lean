import FlagGovernance.Config.Basic
/-
The JSON form of configurations.

What is unset is left out, but for the two switches, which are always told. The
selection of a rule stands among the members of the rule.
-/

namespace FlagGovernance

def Instant.toJson (i : Instant) : Json := .string i.text

def Variation.toJson : Variation → Json
  | .bool b => .bool b
  | .number n => .number n
  | .string s => .string s
  | .document v => v

def RampEnd.toJson (e : RampEnd) : Json :=
  .object ([("variation", .string e.variation)] ++
    Json.optional "percentage" Json.ofDouble e.percentage ++ [("date", e.date.toJson)])

def Ramp.toJson (r : Ramp) : Json :=
  .object [("initial", r.initial.toJson), ("end", r.final.toJson)]

def Split.toJson (s : Split) : Json :=
  .object (s.mapValues Json.ofDouble).entries

/-- The one member that says how to select. -/
def Selection.toMember : Selection → String × Json
  | .variation name => (Mode.variation.name, .string name)
  | .percentage split => (Mode.percentage.name, Split.toJson split)
  | .progressive ramp => (Mode.progressive.name, ramp.toJson)

def Selection.toJson (s : Selection) : Json := .object [s.toMember]

/-- A switch that is told only when set. -/
def switchMember (key : String) (on : Bool) : List (String × Json) :=
  if on then [(key, .bool true)] else []

/-- A list that is told only when it has items. -/
def listMember {α : Type} (key : String) (encode : α → Json) (items : List α) :
    List (String × Json) :=
  if items.isEmpty then [] else [(key, .array (items.map encode))]

def TargetingRule.toJson (r : TargetingRule) : Json :=
  .object ([("name", .string r.name), ("query", .string r.query), r.selection.toMember] ++
    switchMember "disable" r.disable)

def ScheduledStep.toJson (s : ScheduledStep) : Json :=
  .object ([("date", s.date.toJson)] ++
    Json.optional "targeting" (fun rules => .array (rules.map TargetingRule.toJson)) s.targeting ++
    [("defaultRule", s.defaultRule.toJson)])

def Experiment.toJson (e : Experiment) : Json :=
  .object (Json.optional "start" Instant.toJson e.start ++
    Json.optional "end" Instant.toJson e.finish)

namespace FlagConfig

/-- The configuration with its members in the order in which they are
declared. -/
def toJson (c : FlagConfig) : Json :=
  .object ([("variations", .object (c.variations.mapValues Variation.toJson).entries)] ++
    listMember "targeting" TargetingRule.toJson c.targeting ++
    [("defaultRule", c.defaultRule.toJson)] ++
    listMember "scheduledRollout" ScheduledStep.toJson c.schedule ++
    Json.optional "experimentation" Experiment.toJson c.experiment ++
    [("disable", .bool c.disable), ("trackEvents", .bool c.trackEvents)] ++
    Json.optional "version" Json.string c.version ++
    Json.optional "bucketingKey" Json.string c.bucketingKey ++
    (if c.metadata.isEmpty then [] else [("metadata", .object c.metadata.entries)]))

/-- The configuration as it is stored: every object in order of key. -/
def toDocument (c : FlagConfig) : Json := c.toJson.sorted

end FlagConfig

end FlagGovernance
