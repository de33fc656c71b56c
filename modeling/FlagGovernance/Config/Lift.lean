import FlagGovernance.Config.Draft
import FlagGovernance.Config.Validate
import FlagGovernance.Time.Strict
/-
From a draft to a typed configuration.

Lifting demands exactly one mode of selection in every place and RFC 3339 dates.
Empty names, splits and texts count as unset. `validateDocument` reads a document,
demands a variation, lifts, and then checks the rules of typed configurations.
-/

namespace FlagGovernance

namespace Lift

/-- A text, unless it is empty. -/
def nonEmpty : Option String → Option String
  | some text => if text.isEmpty then none else some text
  | none => none

def nonEmptySplit : Option Split → Option Split
  | some split => if split.isEmpty then none else some split
  | none => none

/-- A date in RFC 3339 form. -/
def date (raw path : String) : Except Violation Instant :=
  match Instant.ofRfc3339 raw with
  | .ok instant => .ok instant
  | .error _ => .error ⟨path, .invalidDate raw⟩

/-- A date that must be there. -/
def requiredDate (raw : Option String) (path : String) : Except Violation Instant :=
  match nonEmpty raw with
  | some text => date text path
  | none => .error ⟨path, .missingField "date"⟩

/-- A date that may be left out. -/
def optionalDate (raw : Option String) (path : String) : Except Violation (Option Instant) :=
  match nonEmpty raw with
  | some text => (date text path).map some
  | none => .ok none

def rampEnd (draft : Option RampEndDraft) (path which : String) : Except Violation RampEnd :=
  match draft with
  | some d => (requiredDate d.date (path ++ "." ++ which ++ ".date")).map
      (fun date => ⟨d.variation, d.percentage, date⟩)
  | none => .error ⟨path ++ "." ++ which, .missingField which⟩

def ramp (draft : RampDraft) (path : String) : Except Violation Ramp := do
  let initial ← rampEnd draft.initial path "initial"
  let final ← rampEnd draft.final path "end"
  return ⟨initial, final⟩

/-- The modes that a draft sets. -/
def modes (draft : SelectionDraft) : List Mode :=
  (if (nonEmpty draft.variation).isSome then [.variation] else []) ++
  (if (nonEmptySplit draft.percentage).isSome then [.percentage] else []) ++
  (if draft.progressive.isSome then [.progressive] else [])

/-- The one selection of a draft. -/
def selection (draft : SelectionDraft) (path : String) : Except Violation Selection :=
  match nonEmpty draft.variation, nonEmptySplit draft.percentage, draft.progressive with
  | some name, none, none => .ok (.variation name)
  | none, some split, none => .ok (.percentage split)
  | none, none, some r => (ramp r (path ++ ".progressiveRollout")).map .progressive
  | none, none, none => .error ⟨path, .missingMode⟩
  | _, _, _ => .error ⟨path, .conflictingModes (modes draft)⟩

def rule (draft : RuleDraft) (path : String) : Except Violation TargetingRule :=
  (selection draft.selection path).map
    (fun s => ⟨draft.name, draft.query, s, draft.disable.getD false⟩)

/-- Items lifted in order, each at the path of its place. -/
def indexed {α β : Type} (lift : α → String → Except Violation β) (path : String) :
    Nat → List α → Except Violation (List β)
  | _, [] => .ok []
  | index, a :: rest => do
    let b ← lift a (path ++ "[" ++ toString index ++ "]")
    let more ← indexed lift path (index + 1) rest
    return b :: more

def rules (drafts : List RuleDraft) (path : String) : Except Violation (List TargetingRule) :=
  indexed rule path 0 drafts

def step (draft : StepDraft) (path : String) : Except Violation ScheduledStep := do
  let date ← requiredDate draft.date (path ++ ".date")
  let targeting ←
    match draft.targeting with
    | some drafts => (rules drafts (path ++ ".targeting")).map some
    | none => .ok none
  let defaultRule ← selection (draft.defaultRule.getD .blank) (path ++ ".defaultRule")
  return ⟨date, targeting, defaultRule⟩

def experiment : Option ExperimentDraft → Except Violation (Option Experiment)
  | some draft => do
    let start ← optionalDate draft.start "experimentation.start"
    let finish ← optionalDate draft.finish "experimentation.end"
    return some ⟨start, finish⟩
  | none => .ok none

/-- The configuration of a draft. -/
def config (draft : ConfigDraft) : Except Violation FlagConfig := do
  let defaultRule ← selection (draft.defaultRule.getD .blank) "defaultRule"
  let targeting ← rules draft.targeting "targeting"
  let schedule ← indexed step "scheduledRollout" 0 draft.schedule
  let experiment ← experiment draft.experiment
  return {
    variations := draft.variations
    targeting, defaultRule, schedule, experiment
    disable := draft.disable.getD false
    trackEvents := draft.trackEvents.getD true
    version := nonEmpty draft.version
    bucketingKey := nonEmpty draft.bucketingKey
    metadata := draft.metadata }

end Lift

namespace ConfigDraft

/-- The draft that a document spells. -/
def ofDocument (doc : Json) : Except Violation ConfigDraft :=
  (ConfigDraft.decode .direct doc).mapError (fun e => ⟨"$", .malformedDocument e⟩)

end ConfigDraft

/-- The configuration of a proposed document, if it keeps every rule. -/
def validateDocument (doc : Json) : Except Violation FlagConfig := do
  let draft ← ConfigDraft.ofDocument doc
  if draft.variations.isEmpty then throw ⟨"variations", .noVariations⟩
  let config ← Lift.config draft
  config.validate
  return config

end FlagGovernance
