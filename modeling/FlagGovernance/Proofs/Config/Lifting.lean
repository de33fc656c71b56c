import FlagGovernance.Config.Lift
import FlagGovernance.Proofs.Config.Stored
import FlagGovernance.Proofs.Time.Rfc3339
/-
Lifting back what was stored.

The draft of a configuration lifts, unless a year of one of its dates does not have
four digits or one of its selections is blank, which a draft counts as unset.  What
comes back is the configuration itself but for texts that are set and empty.
-/

namespace FlagGovernance

/-- What a draft counts as no selection: the empty name and the empty split. -/
def Selection.IsBlank : Selection → Prop
  | .variation name => name.isEmpty = true
  | .percentage split => split.isEmpty = true
  | .progressive _ => False

instance : DecidablePred Selection.IsBlank
  | .variation name => inferInstanceAs (Decidable (name.isEmpty = true))
  | .percentage split => inferInstanceAs (Decidable (split.isEmpty = true))
  | .progressive _ => inferInstanceAs (Decidable False)

def Selection.dates : Selection → List Instant
  | .progressive ramp => [ramp.initial.date, ramp.final.date]
  | _ => []

def Experiment.dates (e : Experiment) : List Instant := e.start.toList ++ e.finish.toList

/-- The selection comes back from its draft. -/
def Selection.Liftable (s : Selection) : Prop := (∀ i ∈ s.dates, i.HasPlainYear) ∧ ¬ s.IsBlank

/-- The selections of a step, its default first. -/
def ScheduledStep.selections (s : ScheduledStep) : List Selection :=
  s.defaultRule :: (s.targeting.getD []).map TargetingRule.selection

def ScheduledStep.Liftable (s : ScheduledStep) : Prop :=
  s.date.HasPlainYear ∧ ∀ selection ∈ s.selections, selection.Liftable

namespace FlagConfig

/-- All selections, those of the top level first. -/
def selections (c : FlagConfig) : List Selection :=
  c.defaultRule :: c.targeting.map TargetingRule.selection ++
    c.schedule.flatMap ScheduledStep.selections

/-- All dates: of the ramps, of the steps, of the experiment. -/
def dates (c : FlagConfig) : List Instant :=
  c.selections.flatMap Selection.dates ++ c.schedule.map ScheduledStep.date ++
    c.experiment.toList.flatMap Experiment.dates

/-- The configuration comes back from its draft. -/
def Liftable (c : FlagConfig) : Prop :=
  (∀ i ∈ c.dates, i.HasPlainYear) ∧ ∀ selection ∈ c.selections, ¬ selection.IsBlank

/-- The configuration with the texts that are set and empty unset. -/
def tidied (c : FlagConfig) : FlagConfig :=
  { c with version := Lift.nonEmpty c.version, bucketingKey := Lift.nonEmpty c.bucketingKey }

theorem forall_mem_selections_iff (c : FlagConfig) (P : Selection → Prop) :
    (∀ selection ∈ c.selections, P selection) ↔
      P c.defaultRule ∧ (∀ rule ∈ c.targeting, P rule.selection) ∧
        ∀ step ∈ c.schedule, ∀ selection ∈ step.selections, P selection := by
  rw [selections, List.cons_append, List.forall_mem_cons, List.forall_mem_append,
    List.forall_mem_map, List.forall_mem_flatMap]

theorem forall_mem_dates_iff (c : FlagConfig) (P : Instant → Prop) :
    (∀ i ∈ c.dates, P i) ↔
      (∀ selection ∈ c.selections, ∀ i ∈ selection.dates, P i) ∧
        (∀ step ∈ c.schedule, P step.date) ∧
          ∀ i ∈ c.experiment.toList.flatMap Experiment.dates, P i := by
  rw [dates, List.forall_mem_append, List.forall_mem_append, List.forall_mem_flatMap,
    List.forall_mem_map, and_assoc]

/-- The configuration comes back from its draft if all that it is made of does. -/
theorem liftable_iff (c : FlagConfig) :
    c.Liftable ↔ c.defaultRule.Liftable ∧ (∀ rule ∈ c.targeting, rule.selection.Liftable) ∧
      (∀ step ∈ c.schedule, step.Liftable) ∧
        ∀ i ∈ c.experiment.toList.flatMap Experiment.dates, i.HasPlainYear := by
  have hselections := c.forall_mem_selections_iff Selection.Liftable
  simp only [Selection.Liftable, imp_and, forall_and] at hselections
  simp only [Liftable, forall_mem_dates_iff, Selection.Liftable, ScheduledStep.Liftable, imp_and,
    forall_and]
  constructor
  · rintro ⟨⟨hplain, hdates, hexperiment⟩, hblank⟩
    obtain ⟨hdefault, htargeting, hsteps⟩ := hselections.1 ⟨hplain, hblank⟩
    exact ⟨hdefault, htargeting, ⟨hdates, hsteps⟩, hexperiment⟩
  · rintro ⟨hdefault, htargeting, ⟨hdates, hsteps⟩, hexperiment⟩
    obtain ⟨hplain, hblank⟩ := hselections.2 ⟨hdefault, htargeting, hsteps⟩
    exact ⟨⟨hplain, hdates, hexperiment⟩, hblank⟩

end FlagConfig

theorem Instant.nonEmpty_text (i : Instant) : Lift.nonEmpty (some i.text) = some i.text := by
  have htext : i.text.toList ≠ [] := by
    rw [i.toList_text, restText]
    exact List.append_ne_nil_of_right_ne_nil _ (List.cons_ne_nil _ _)
  rw [Lift.nonEmpty, if_neg]
  intro hempty
  rw [String.isEmpty_iff.1 hempty] at htext
  exact htext rfl

namespace Lift

theorem answersIf_date (i : Instant) (path : String) :
    AnswersIf (date i.text path) i.HasPlainYear i := by
  intro j
  rw [← i.answersIf_ofRfc3339_text j, date]
  cases Instant.ofRfc3339 i.text with
  | ok found => simp only [Except.ok.injEq]
  | error => exact iff_of_false nofun nofun

theorem answersIf_requiredDate (i : Instant) (path : String) :
    AnswersIf (requiredDate (some i.text) path) i.HasPlainYear i := by
  rw [requiredDate, i.nonEmpty_text]
  exact answersIf_date i path

theorem answersIf_optionalDate (i? : Option Instant) (path : String) :
    AnswersIf (optionalDate (i?.map Instant.text) path) (∀ i ∈ i?.toList, i.HasPlainYear) i? := by
  cases i? with
  | none => exact AnswersIf.ok.of_iff (iff_true_intro (List.forall_mem_nil _))
  | some i =>
      rw [Option.map_some, optionalDate, i.nonEmpty_text]
      exact (answersIf_date i path).map.of_iff List.forall_mem_singleton

theorem answersIf_rampEnd (e : RampEnd) (path which : String) :
    AnswersIf (rampEnd (some e.draft) path which) e.date.HasPlainYear e := by
  have hdate := (answersIf_requiredDate e.date (path ++ "." ++ which ++ ".date")).map
    (f := fun date => (⟨e.variation, e.percentage, date⟩ : RampEnd))
  exact hdate

theorem answersIf_ramp (r : Ramp) (path : String) :
    AnswersIf (ramp r.draft path) (r.initial.date.HasPlainYear ∧ r.final.date.HasPlainYear) r := by
  refine .of_iff (.bind (answersIf_rampEnd r.initial path "initial")
    (.bind (answersIf_rampEnd r.final path "end") .ok)) ?_
  rw [and_true]

theorem answersIf_selection (s : Selection) (path : String) :
    AnswersIf (selection s.draft path) s.Liftable s := by
  rw [Selection.Liftable]
  cases s with
  | variation name =>
      rw [Selection.draft, selection, nonEmpty, Selection.IsBlank]
      cases name.isEmpty with
      | true => exact AnswersIf.error.of_iff (by simp)
      | false => exact AnswersIf.ok.of_iff (by simp [Selection.dates])
  | percentage split =>
      rw [Selection.draft, selection, nonEmptySplit, Selection.IsBlank]
      cases split.isEmpty with
      | true => exact AnswersIf.error.of_iff (by simp)
      | false => exact AnswersIf.ok.of_iff (by simp [Selection.dates])
  | progressive ramp =>
      rw [Selection.draft, selection, nonEmpty]
      refine .of_iff (.map (answersIf_ramp ramp _)) ?_
      simp [Selection.dates, Selection.IsBlank]

theorem answersIf_rule (r : TargetingRule) (path : String) :
    AnswersIf (rule r.draft path) r.selection.Liftable r := by
  have hsame : (⟨r.name, r.query, r.selection, r.draft.disable.getD false⟩ : TargetingRule) = r := by
    obtain ⟨name, query, selection, disable⟩ := r
    cases disable <;> rfl
  have hlift : AnswersIf (rule r.draft path) r.selection.Liftable
      ⟨r.name, r.query, r.selection, r.draft.disable.getD false⟩ :=
    .map (answersIf_selection r.selection path)
  rwa [hsame] at hlift

variable {α β : Type} {lift : β → String → Except Violation α} {draft : α → β} {p : α → Prop}

theorem answersIf_indexed {items : List α}
    (hlift : ∀ a ∈ items, ∀ path, AnswersIf (lift (draft a) path) (p a) a) (path : String)
    (index : Nat) :
    AnswersIf (indexed lift path index (items.map draft)) (∀ a ∈ items, p a) items := by
  induction items generalizing index with
  | nil => exact AnswersIf.ok.of_iff (iff_true_intro (List.forall_mem_nil _))
  | cons a rest ih =>
      rw [List.forall_mem_cons] at hlift
      refine .of_iff (.bind (hlift.1 _) (.bind (ih hlift.2 (index + 1)) .ok)) ?_
      rw [and_true, List.forall_mem_cons]

theorem answersIf_rules (rules : List TargetingRule) (path : String) :
    AnswersIf (Lift.rules (rules.map TargetingRule.draft) path)
      (∀ rule ∈ rules, rule.selection.Liftable) rules :=
  answersIf_indexed (fun rule _ => answersIf_rule rule) path 0

theorem answersIf_step (s : ScheduledStep) (path : String) :
    AnswersIf (step s.draft path) s.Liftable s := by
  obtain ⟨date, targeting, defaultRule⟩ := s
  cases targeting with
  | none =>
      refine .of_iff (.bind (answersIf_requiredDate date _) (.bind .ok
        (.bind (answersIf_selection defaultRule _) .ok))) ?_
      rw [and_true, true_and, ScheduledStep.Liftable, ScheduledStep.selections]
      exact and_congr_right' List.forall_mem_singleton
  | some rules =>
      refine .of_iff (.bind (answersIf_requiredDate date _) (.bind (.map (answersIf_rules rules _))
        (.bind (answersIf_selection defaultRule _) .ok))) ?_
      rw [and_true, ScheduledStep.Liftable, ScheduledStep.selections, List.forall_mem_cons,
        Option.getD_some, List.forall_mem_map, and_comm (a := defaultRule.Liftable)]

theorem answersIf_experiment (e? : Option Experiment) :
    AnswersIf (experiment (e?.map Experiment.draft))
      (∀ i ∈ e?.toList.flatMap Experiment.dates, i.HasPlainYear) e? := by
  cases e? with
  | none => exact AnswersIf.ok.of_iff (iff_true_intro (List.forall_mem_nil _))
  | some e =>
      refine .of_iff (.bind (answersIf_optionalDate e.start _)
        (.bind (answersIf_optionalDate e.finish _) .ok)) ?_
      simp [Experiment.dates, or_imp, forall_and]

theorem answersIf_config (c : FlagConfig) :
    AnswersIf (config c.draft) c.Liftable c.tidied := by
  refine .of_iff (.bind (answersIf_selection c.defaultRule _)
    (.bind (answersIf_rules c.targeting _)
      (.bind (answersIf_indexed (fun step _ => answersIf_step step) _ 0)
        (.bind (answersIf_experiment c.experiment) .ok)))) ?_
  rw [and_true, c.liftable_iff]

end Lift

end FlagGovernance
