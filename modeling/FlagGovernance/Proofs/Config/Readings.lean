import FlagGovernance.Proofs.Config.Lifting
/-
What configurations that were read have.

Every number of a well-formed document is finite, so a typed configuration or a
draft that is read from one has a JSON form.  A draft that lifts gives a
configuration without blank selections and without texts that are set and empty.
-/

namespace FlagGovernance

open Decode Record

theorem Decode.ensures_double : Decode.Ensures double (fun value => value.isFinite = true) := by
  intro r v value hv hread
  cases hv with
  | null | bool | string | array | object => contradiction
  | number hn => exact Except.ok.inj hread ▸ Number.isFinite_toDouble hn

theorem Decode.ensures_json : Decode.Ensures json Json.WellFormed :=
  fun _ _ _ hv hread => Except.ok.inj hread ▸ hv

theorem Decode.ensures_split : Decode.Ensures (map double) Split.Storable :=
  ensures_double.map

theorem Variation.ensures_decode : Decode.Ensures Variation.decode Variation.Storable :=
  fun _ v _ hv hread => ⟨v, hv, Except.ok.inj hread⟩

section Typed

theorem RampEnd.ensures_decode : Decode.Ensures RampEnd.decode RampEnd.Storable := by
  refine .record (.seq (.seq (.map (ensures_required (ensures_true string)) ?_)
    (ensures_optional ensures_double)) (ensures_required (ensures_true instant))) _
  exact fun variation _ percentage hpercentage date _ => hpercentage

theorem Ramp.ensures_decode : Decode.Ensures Ramp.decode Ramp.Storable := by
  refine .record (.seq (.map (ensures_required RampEnd.ensures_decode) ?_)
    (ensures_required RampEnd.ensures_decode)) _
  exact fun initial hinitial final hfinal => ⟨hinitial, hfinal⟩

theorem Selection.ensures_choices :
    ∀ c ∈ Selection.choices, c.2.Ensures Selection.Storable := by
  refine List.forall_mem_cons.2 ⟨?_, List.forall_mem_cons.2 ⟨?_, List.forall_mem_singleton.2 ?_⟩⟩
  · exact (ensures_true string).mapped (fun _ _ => trivial)
  · exact ensures_split.mapped (fun _ hsplit => hsplit)
  · exact Ramp.ensures_decode.mapped (fun _ hramp => hramp)

theorem Selection.ensures_decode : Decode.Ensures Selection.decode Selection.Storable :=
  .choice ensures_choices

theorem TargetingRule.ensures_decode :
    Decode.Ensures TargetingRule.decode (fun rule => rule.selection.Storable) := by
  intro r v rule hv hread
  obtain ⟨found, hfound, hrule⟩ := bind_eq_ok_iff.1 hread
  obtain rfl : (⟨found.1.1, found.1.2.1, found.2, found.1.2.2⟩ : TargetingRule) = rule :=
    Except.ok.inj hrule
  have hensures := Decode.Ensures.spread (fun _ _ _ _ _ _ => trivial)
    (fun ms selection hms => ensures_spreadChoice Selection.ensures_choices hms)
      "TargetingRule" r v found hv hfound
  exact hensures.2

theorem ScheduledStep.ensures_decode :
    Decode.Ensures ScheduledStep.decode ScheduledStep.Storable := by
  refine .record (.seq (.seq (.map (ensures_required (ensures_true instant)) ?_)
    (ensures_optional TargetingRule.ensures_decode.list))
    (ensures_required Selection.ensures_decode)) _
  exact fun date _ targeting htargeting defaultRule hdefault => ⟨htargeting, hdefault⟩

/-- A typed configuration that is read has a JSON form. -/
theorem FlagConfig.ensures_decode : Decode.Ensures FlagConfig.decode FlagConfig.Storable := by
  refine .record (.seq (.seq (.seq (.seq (.seq (.seq (.seq (.seq (.seq (.map
    (ensures_required Variation.ensures_decode.map) ?_)
    (ensures_defaulted TargetingRule.ensures_decode.list (List.forall_mem_nil _)))
    (ensures_required Selection.ensures_decode))
    (ensures_defaulted ScheduledStep.ensures_decode.list (List.forall_mem_nil _)))
    (ensures_optional (ensures_true Experiment.decode)))
    (ensures_defaulted (ensures_true bool) trivial))
    (ensures_defaulted (ensures_true bool) trivial))
    (ensures_optional (ensures_true string)))
    (ensures_optional (ensures_true string)))
    (ensures_defaulted ensures_json.map (List.forall_mem_nil _))) _
  intro variations hvariations targeting htargeting defaultRule hdefault schedule hschedule
    experiment _ disable _ trackEvents _ version _ bucketingKey _ metadata hmetadata
  exact ⟨hvariations, htargeting, hdefault, hschedule, hmetadata⟩

end Typed

section Drafts

def RampEndDraft.Storable (e : RampEndDraft) : Prop :=
  ∀ value, e.percentage = some value → value.isFinite = true

structure RampDraft.Storable (r : RampDraft) : Prop where
  initial : ∀ e, r.initial = some e → e.Storable
  final : ∀ e, r.final = some e → e.Storable

structure SelectionDraft.Storable (s : SelectionDraft) : Prop where
  weights : ∀ split, s.percentage = some split → Split.Storable split
  ramp : ∀ ramp, s.progressive = some ramp → ramp.Storable

structure StepDraft.Storable (s : StepDraft) : Prop where
  targeting : ∀ rules, s.targeting = some rules → ∀ rule ∈ rules, rule.selection.Storable
  default_rule : ∀ selection, s.defaultRule = some selection → selection.Storable

structure ConfigDraft.Storable (c : ConfigDraft) : Prop where
  variations : ∀ x ∈ c.variations.values, x.Storable
  targeting : ∀ rule ∈ c.targeting, rule.selection.Storable
  default_rule : ∀ selection, c.defaultRule = some selection → selection.Storable
  schedule : ∀ step ∈ c.schedule, step.Storable
  metadata : ∀ v ∈ c.metadata.values, v.WellFormed

theorem RampEndDraft.ensures_decode :
    Decode.Ensures RampEndDraft.decode RampEndDraft.Storable := by
  refine .record (.seq (.seq (.map (ensures_defaulted (ensures_true string) trivial) ?_)
    (ensures_nullable ensures_double)) (ensures_nullable (ensures_true string))) _
  exact fun variation _ percentage hpercentage date _ => hpercentage

theorem RampDraft.ensures_decode : Decode.Ensures RampDraft.decode RampDraft.Storable := by
  refine .record (.seq (.map (ensures_nullable RampEndDraft.ensures_decode) ?_)
    (ensures_nullable RampEndDraft.ensures_decode)) _
  exact fun initial hinitial final hfinal => ⟨hinitial, hfinal⟩

theorem SelectionDraft.ensures_fields :
    SelectionDraft.fields.Ensures SelectionDraft.Storable := by
  refine .seq (.seq (.map (ensures_nullable (ensures_true string)) ?_)
    (ensures_nullable ensures_split)) (ensures_nullable RampDraft.ensures_decode)
  exact fun variation _ percentage hpercentage progressive hprogressive =>
    ⟨hpercentage, hprogressive⟩

theorem SelectionDraft.ensures_decode :
    Decode.Ensures SelectionDraft.decode SelectionDraft.Storable :=
  .record ensures_fields _

theorem RuleDraft.ensures_decode :
    Decode.Ensures RuleDraft.decode (fun rule => rule.selection.Storable) := by
  intro r v rule hv hread
  obtain ⟨found, hfound, hrule⟩ := bind_eq_ok_iff.1 hread
  obtain rfl : (⟨found.1.1, found.1.2.1, found.2, found.1.2.2⟩ : RuleDraft) = rule :=
    Except.ok.inj hrule
  have hensures := Decode.Ensures.spread (fun _ _ _ _ _ _ => trivial)
    (fun ms selection hms => ensures_members SelectionDraft.ensures_fields hms)
      "RuleDocument" r v found hv hfound
  exact hensures.2

theorem StepDraft.ensures_decode : Decode.Ensures StepDraft.decode StepDraft.Storable := by
  refine .record (.seq (.seq (.map (ensures_nullable (ensures_true string)) ?_)
    (ensures_nullable RuleDraft.ensures_decode.list))
    (ensures_nullable SelectionDraft.ensures_decode)) _
  exact fun date _ targeting htargeting defaultRule hdefault => ⟨htargeting, hdefault⟩

/-- A draft that is read has a JSON form. -/
theorem ConfigDraft.ensures_decode : Decode.Ensures ConfigDraft.decode ConfigDraft.Storable := by
  refine .record (.seq (.seq (.seq (.seq (.seq (.seq (.seq (.seq (.seq (.map
    (ensures_defaulted Variation.ensures_decode.map (List.forall_mem_nil _)) ?_)
    (ensures_defaulted RuleDraft.ensures_decode.list (List.forall_mem_nil _)))
    (ensures_nullable SelectionDraft.ensures_decode))
    (ensures_defaulted StepDraft.ensures_decode.list (List.forall_mem_nil _)))
    (ensures_nullable (ensures_true ExperimentDraft.decode)))
    (ensures_nullable (ensures_true bool)))
    (ensures_nullable (ensures_true bool)))
    (ensures_nullable (ensures_true string)))
    (ensures_nullable (ensures_true string)))
    (ensures_defaulted ensures_json.map (List.forall_mem_nil _))) _
  intro variations hvariations targeting htargeting defaultRule hdefault schedule hschedule
    experiment _ disable _ trackEvents _ version _ bucketingKey _ metadata hmetadata
  exact ⟨hvariations, htargeting, hdefault, hschedule, hmetadata⟩

end Drafts

/-- The selection has a JSON form, and a draft would not count it as unset. -/
def Selection.Settled (s : Selection) : Prop := s.Storable ∧ ¬ s.IsBlank

def ScheduledStep.Settled (s : ScheduledStep) : Prop :=
  s.Storable ∧ ∀ selection ∈ s.selections, ¬ selection.IsBlank

/-- The configuration has a JSON form and nothing that a draft would count as
unset. -/
structure FlagConfig.Settled (c : FlagConfig) : Prop where
  storable : c.Storable
  chosen : ∀ selection ∈ c.selections, ¬ selection.IsBlank
  tidy : c.tidied = c

namespace Lift

theorem nonEmpty_eq_some {text? : Option String} {text : String}
    (hsome : nonEmpty text? = some text) : text.isEmpty = false := by
  cases text? with
  | none => contradiction
  | some text' =>
      rw [nonEmpty] at hsome
      split at hsome
      · contradiction
      · next hfull => exact Option.some.inj hsome ▸ Bool.not_eq_true _ ▸ hfull

/-- What is not empty stays so. -/
theorem nonEmpty_nonEmpty (text? : Option String) : nonEmpty (nonEmpty text?) = nonEmpty text? := by
  cases hfull : nonEmpty text? with
  | none => rfl
  | some text => rw [nonEmpty, nonEmpty_eq_some hfull, if_neg Bool.false_ne_true]

theorem nonEmptySplit_eq_some {split? : Option Split} {split : Split}
    (hsome : nonEmptySplit split? = some split) : split? = some split ∧ split.isEmpty = false := by
  cases split? with
  | none => contradiction
  | some split' =>
      rw [nonEmptySplit] at hsome
      split at hsome
      · contradiction
      · next hfull =>
        obtain rfl := Option.some.inj hsome
        exact ⟨rfl, Bool.not_eq_true _ ▸ hfull⟩

theorem rampEnd_storable {draft : Option RampEndDraft} {path which : String} {e : RampEnd}
    (hlift : rampEnd draft path which = .ok e) (hdraft : ∀ d, draft = some d → d.Storable) :
    e.Storable := by
  cases draft with
  | none => contradiction
  | some d =>
      obtain ⟨date, _, rfl⟩ := map_eq_ok_iff.1 hlift
      exact hdraft d rfl

theorem ramp_storable {draft : RampDraft} {path : String} {r : Ramp}
    (hlift : ramp draft path = .ok r) (hdraft : draft.Storable) : r.Storable := by
  obtain ⟨initial, hinitial, hrest⟩ := bind_eq_ok_iff.1 hlift
  obtain ⟨final, hfinal, hsame⟩ := bind_eq_ok_iff.1 hrest
  rw [← Except.ok.inj hsame]
  exact ⟨rampEnd_storable hinitial hdraft.initial, rampEnd_storable hfinal hdraft.final⟩

theorem selection_settled {draft : SelectionDraft} {path : String} {s : Selection}
    (hlift : selection draft path = .ok s) (hdraft : draft.Storable) :
    s.Settled := by
  rw [selection] at hlift
  split at hlift
  · next name hname _ _ =>
    rw [← Except.ok.inj hlift]
    exact ⟨trivial, Bool.not_eq_true _ ▸ nonEmpty_eq_some hname⟩
  · next split _ hsplit _ =>
    obtain ⟨hsome, hfull⟩ := nonEmptySplit_eq_some hsplit
    rw [← Except.ok.inj hlift]
    exact ⟨hdraft.weights split hsome, Bool.not_eq_true _ ▸ hfull⟩
  · next r _ _ hprogressive =>
    obtain ⟨ramp, hramp, rfl⟩ := map_eq_ok_iff.1 hlift
    exact ⟨ramp_storable hramp (hdraft.ramp r hprogressive), id⟩
  · contradiction
  · contradiction

theorem rule_settled {draft : RuleDraft} {path : String} {rule : TargetingRule}
    (hlift : Lift.rule draft path = .ok rule) (hdraft : draft.selection.Storable) :
    rule.selection.Settled := by
  obtain ⟨s, hs, rfl⟩ := map_eq_ok_iff.1 hlift
  exact selection_settled hs hdraft

theorem indexed_forall {α β : Type} {lift : α → String → Except Violation β} {path : String}
    {index : Nat} {drafts : List α} {items : List β} {P : β → Prop}
    (hlift : indexed lift path index drafts = .ok items)
    (heach : ∀ draft ∈ drafts, ∀ path b, lift draft path = .ok b → P b) : ∀ b ∈ items, P b := by
  induction drafts generalizing index items with
  | nil =>
      obtain rfl : [] = items := Except.ok.inj hlift
      exact List.forall_mem_nil _
  | cons draft rest ih =>
      rw [List.forall_mem_cons] at heach
      obtain ⟨b, hb, hrest⟩ := bind_eq_ok_iff.1 hlift
      obtain ⟨more, hmore, hitems⟩ := bind_eq_ok_iff.1 hrest
      obtain rfl : b :: more = items := Except.ok.inj hitems
      exact List.forall_mem_cons.2 ⟨heach.1 _ b hb, ih hmore heach.2⟩

theorem rules_settled {drafts : List RuleDraft} {path : String} {rules : List TargetingRule}
    (hlift : Lift.rules drafts path = .ok rules)
    (hdrafts : ∀ draft ∈ drafts, draft.selection.Storable) :
    ∀ rule ∈ rules, rule.selection.Settled :=
  indexed_forall hlift (fun draft hmem _ _ hrule => rule_settled hrule (hdrafts draft hmem))

theorem getD_blank_storable {draft : Option SelectionDraft}
    (hdraft : ∀ selection, draft = some selection → selection.Storable) :
    (draft.getD .blank).Storable := by
  cases draft with
  | none => exact ⟨nofun, nofun⟩
  | some selection => exact hdraft selection rfl

theorem step_settled {draft : StepDraft} {path : String} {s : ScheduledStep}
    (hlift : step draft path = .ok s) (hdraft : draft.Storable) : s.Settled := by
  obtain ⟨date, _, hrest⟩ := bind_eq_ok_iff.1 hlift
  have hblank := getD_blank_storable hdraft.default_rule
  cases hdrafts : draft.targeting with
  | none =>
      rw [hdrafts] at hrest
      obtain ⟨_, hnone, hrest⟩ := bind_eq_ok_iff.1 hrest
      obtain ⟨defaultRule, hselection, hsame⟩ := bind_eq_ok_iff.1 hrest
      rw [← Except.ok.inj hsame, ← Except.ok.inj hnone]
      have hdefault := selection_settled hselection hblank
      exact ⟨⟨nofun, hdefault.1⟩, List.forall_mem_singleton.2 hdefault.2⟩
  | some drafts =>
      rw [hdrafts] at hrest
      obtain ⟨_, htargeting, hrest⟩ := bind_eq_ok_iff.1 hrest
      obtain ⟨rules, hlifted, rfl⟩ := map_eq_ok_iff.1 htargeting
      obtain ⟨defaultRule, hselection, hsame⟩ := bind_eq_ok_iff.1 hrest
      rw [← Except.ok.inj hsame]
      have hdefault := selection_settled hselection hblank
      have hrules := rules_settled hlifted (hdraft.targeting drafts hdrafts)
      refine ⟨⟨fun _ hsome rule hmem => ?_, hdefault.1⟩, List.forall_mem_cons.2 ⟨hdefault.2,
        List.forall_mem_map.2 (fun rule hmem => (hrules rule hmem).2)⟩⟩
      exact (hrules rule (Option.some.inj hsome ▸ hmem)).1

/-- What a draft lifts to is settled. -/
theorem config_settled {draft : ConfigDraft} {c : FlagConfig} (hlift : config draft = .ok c)
    (hdraft : draft.Storable) : c.Settled := by
  obtain ⟨defaultRule, hselection, hrest⟩ := bind_eq_ok_iff.1 hlift
  obtain ⟨targeting, hlifted, hrest⟩ := bind_eq_ok_iff.1 hrest
  obtain ⟨schedule, hsteps, hrest⟩ := bind_eq_ok_iff.1 hrest
  obtain ⟨experiment, _, hsame⟩ := bind_eq_ok_iff.1 hrest
  have hdefault := selection_settled hselection (getD_blank_storable hdraft.default_rule)
  have hrules := rules_settled hlifted hdraft.targeting
  have hschedule := indexed_forall hsteps
    (fun step hmem _ _ hstep => step_settled hstep (hdraft.schedule step hmem))
  rw [← Except.ok.inj hsame]
  constructor
  · exact ⟨hdraft.variations, fun rule hmem => (hrules rule hmem).1, hdefault.1,
      fun step hmem => (hschedule step hmem).1, hdraft.metadata⟩
  · exact (FlagConfig.forall_mem_selections_iff _ _).2 ⟨hdefault.2,
      fun rule hmem => (hrules rule hmem).2, fun step hmem => (hschedule step hmem).2⟩
  · simp only [FlagConfig.tidied, nonEmpty_nonEmpty]

end Lift

end FlagGovernance
