import FlagGovernance.Config.Decode
/-
Configurations as they are proposed.

In a draft every way to select is a member of its own that may or may not be
there, and dates are still text.
-/

namespace FlagGovernance

open Decode

structure RampEndDraft where
  variation : String
  percentage : Option Double
  date : Option String
deriving Repr

structure RampDraft where
  initial : Option RampEndDraft
  final : Option RampEndDraft
deriving Repr

structure SelectionDraft where
  variation : Option String
  percentage : Option Split
  progressive : Option RampDraft
deriving Repr

/-- The draft of a selection that says nothing. -/
def SelectionDraft.blank : SelectionDraft := ⟨none, none, none⟩

structure RuleDraft where
  name : String
  query : String
  selection : SelectionDraft
  disable : Option Bool
deriving Repr

structure StepDraft where
  date : Option String
  targeting : Option (List RuleDraft)
  defaultRule : Option SelectionDraft
deriving Repr

structure ExperimentDraft where
  start : Option String
  finish : Option String
deriving Repr

structure ConfigDraft where
  variations : Variations
  targeting : List RuleDraft
  defaultRule : Option SelectionDraft
  schedule : List StepDraft
  experiment : Option ExperimentDraft
  disable : Option Bool
  trackEvents : Option Bool
  version : Option String
  bucketingKey : Option String
  metadata : OrderedMap String Json
deriving Repr

def RampEndDraft.decode : Decoder RampEndDraft :=
  record "EndpointDocument"
    (RampEndDraft.mk <$> .defaulted "variation" string "" <*> .nullable "percentage" double
      <*> .nullable "date" string)

def RampDraft.decode : Decoder RampDraft :=
  record "ProgressiveDocument"
    (RampDraft.mk <$> .nullable "initial" RampEndDraft.decode
      <*> .nullable "end" RampEndDraft.decode)

def SelectionDraft.fields : Record SelectionDraft :=
  SelectionDraft.mk <$> .nullable "variation" string <*> .nullable "percentage" (map double)
    <*> .nullable "progressiveRollout" RampDraft.decode

def SelectionDraft.decode : Decoder SelectionDraft :=
  record "ResolutionDocument" SelectionDraft.fields

def RuleDraft.decode : Decoder RuleDraft := fun r v => do
  let (own, selection) ← spread "RuleDocument"
    ((fun name query disable => (name, query, disable)) <$> .defaulted "name" string ""
      <*> .defaulted "query" string "" <*> .nullable "disable" bool)
    (members SelectionDraft.fields .aside) r v
  return ⟨own.1, own.2.1, selection, own.2.2⟩

def StepDraft.decode : Decoder StepDraft :=
  record "StepDocument"
    (StepDraft.mk <$> .nullable "date" string <*> .nullable "targeting" (list RuleDraft.decode)
      <*> .nullable "defaultRule" SelectionDraft.decode)

def ExperimentDraft.decode : Decoder ExperimentDraft :=
  record "ExperimentationDocument"
    (ExperimentDraft.mk <$> .nullable "start" string <*> .nullable "end" string)

def ConfigDraft.decode : Decoder ConfigDraft :=
  record "ConfigDocument"
    (ConfigDraft.mk <$> .defaulted "variations" (map Variation.decode) ∅
      <*> .defaulted "targeting" (list RuleDraft.decode) []
      <*> .nullable "defaultRule" SelectionDraft.decode
      <*> .defaulted "scheduledRollout" (list StepDraft.decode) []
      <*> .nullable "experimentation" ExperimentDraft.decode
      <*> .nullable "disable" bool
      <*> .nullable "trackEvents" bool
      <*> .nullable "version" string
      <*> .nullable "bucketingKey" string
      <*> .defaulted "metadata" (map json) ∅)

end FlagGovernance
