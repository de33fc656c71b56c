import FlagGovernance.Config.Basic
import FlagGovernance.Decode.Choice
/-
Reading typed configurations from documents.

A typed configuration selects in exactly one way in every place, and its dates
may have the looser form. What this does not check is checked by validation.
-/

namespace FlagGovernance

open Decode

/-- Every document is a value. -/
def Variation.decode : Decoder Variation := fun _ v => .ok (.ofJson v)

def RampEnd.decode : Decoder RampEnd :=
  record "RolloutEndpoint"
    (RampEnd.mk <$> .required "variation" string <*> .optional "percentage" double
      <*> .required "date" instant)

def Ramp.decode : Decoder Ramp :=
  record "ProgressiveRollout"
    (Ramp.mk <$> .required "initial" RampEnd.decode <*> .required "end" RampEnd.decode)

/-- The modes of selection by name, each with what it carries. -/
def Selection.choices : List (String × Alternative Selection) :=
  [(Mode.variation.name, .carrying fun r v => (string r v).map .variation),
   (Mode.percentage.name, .carrying fun r v => (map double r v).map .percentage),
   (Mode.progressive.name, .carrying fun r v => (Ramp.decode r v).map .progressive)]

def Selection.decode : Decoder Selection := choice Selection.choices

def TargetingRule.decode : Decoder TargetingRule := fun r v => do
  let (own, selection) ← spread "TargetingRule"
    ((fun name query disable => (name, query, disable)) <$> .required "name" string
      <*> .required "query" string <*> .defaulted "disable" bool false)
    (spreadChoice "Resolution" Selection.choices) r v
  return ⟨own.1, own.2.1, selection, own.2.2⟩

def ScheduledStep.decode : Decoder ScheduledStep :=
  record "ScheduledStep"
    (ScheduledStep.mk <$> .required "date" instant <*> .optional "targeting" (list TargetingRule.decode)
      <*> .required "defaultRule" Selection.decode)

def Experiment.decode : Decoder Experiment :=
  record "Experimentation"
    (Experiment.mk <$> .optional "start" instant <*> .optional "end" instant)

def FlagConfig.decode : Decoder FlagConfig :=
  record "RolloutConfig"
    (FlagConfig.mk <$> .required "variations" (map Variation.decode)
      <*> .defaulted "targeting" (list TargetingRule.decode) []
      <*> .required "defaultRule" Selection.decode
      <*> .defaulted "scheduledRollout" (list ScheduledStep.decode) []
      <*> .optional "experimentation" Experiment.decode
      <*> .defaulted "disable" bool false
      <*> .defaulted "trackEvents" bool true
      <*> .optional "version" string
      <*> .optional "bucketingKey" string
      <*> .defaulted "metadata" (map json) ∅)

end FlagGovernance
