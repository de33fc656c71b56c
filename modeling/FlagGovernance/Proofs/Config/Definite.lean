import Mathlib.Data.List.Forall2
import FlagGovernance.Proofs.Config.Restored
/-
What a draft has to say to be lifted.

A draft is definite if it sets just one mode in every place and gives a date wherever one is
wanted.  Only such a draft lifts, and to the configuration that it spells.
-/

namespace FlagGovernance

/-- The text is set, not empty and a date in RFC 3339 form. -/
def SpellsDate (raw : Option String) (i : Instant) : Prop :=
  ∃ text, raw = some text ∧ text ≠ "" ∧ Instant.ofRfc3339 text = .ok i

/-- The text is not set or empty, and stands for no date, or it spells the date. -/
inductive MaySpellDate (raw : Option String) : Option Instant → Prop
  | unset (hunset : ∀ text, raw = some text → text = "") : MaySpellDate raw none
  | set {i : Instant} (hdate : SpellsDate raw i) : MaySpellDate raw (some i)

structure RampEndDraft.Spells (d : RampEndDraft) (e : RampEnd) : Prop where
  variation : e.variation = d.variation
  percentage : e.percentage = d.percentage
  date : SpellsDate d.date e.date

namespace RampDraft

/-- Both ends are there, each with a date. -/
structure Definite (d : RampDraft) : Prop where
  initial : ∃ e, d.initial = some e ∧ ∃ i, SpellsDate e.date i
  final : ∃ e, d.final = some e ∧ ∃ i, SpellsDate e.date i

structure Spells (d : RampDraft) (r : Ramp) : Prop where
  initial : ∃ e, d.initial = some e ∧ e.Spells r.initial
  final : ∃ e, d.final = some e ∧ e.Spells r.final

end RampDraft

namespace SelectionDraft

/-- The draft selects in the mode. -/
def Sets (d : SelectionDraft) : Mode → Prop
  | .variation => ∃ name, d.variation = some name ∧ name ≠ ""
  | .percentage => ∃ split, d.percentage = some split ∧ split.keys ≠ []
  | .progressive => ∃ ramp, d.progressive = some ramp

/-- The draft selects in just one mode, and a ramp of it has both ends with their dates. -/
structure Definite (d : SelectionDraft) : Prop where
  mode : ∃ mode, ∀ other, d.Sets other ↔ other = mode
  ramp : ∀ ramp, d.progressive = some ramp → ramp.Definite

/-- The draft has the data of the selection. -/
inductive Holds (d : SelectionDraft) : Selection → Prop
  | variation {name : String} (hname : d.variation = some name) : d.Holds (.variation name)
  | percentage {split : Split} (hsplit : d.percentage = some split) : d.Holds (.percentage split)
  | progressive {draft : RampDraft} {ramp : Ramp} (hramp : d.progressive = some draft)
      (hspells : draft.Spells ramp) : d.Holds (.progressive ramp)

/-- The draft sets the mode of the selection alone, with its data. -/
structure Spells (d : SelectionDraft) (s : Selection) : Prop where
  mode : ∀ other, d.Sets other ↔ other = s.mode
  data : d.Holds s

end SelectionDraft

namespace Lift

theorem ite_none_some_eq_some_iff {α : Type} {p : α → Prop} [DecidablePred p] {a b : α} :
    (if p a then none else some a) = some b ↔ some a = some b ∧ ¬ p b := by
  rw [Option.ite_none_left_eq_some, and_comm]
  refine and_congr_right (fun hsame => ?_)
  rw [Option.some.inj hsame]

theorem nonEmpty_eq_some_iff {raw : Option String} {text : String} :
    nonEmpty raw = some text ↔ raw = some text ∧ text ≠ "" := by
  cases raw with
  | none => simp [nonEmpty]
  | some text' =>
      rw [nonEmpty, ite_none_some_eq_some_iff (p := fun t : String => t.isEmpty = true),
        String.isEmpty_iff]

theorem nonEmpty_eq_none_iff {raw : Option String} :
    nonEmpty raw = none ↔ ∀ text, raw = some text → text = "" := by
  cases raw with
  | none => exact iff_of_true rfl nofun
  | some text => simp [nonEmpty]

theorem nonEmptySplit_eq_some_iff {split? : Option Split} {split : Split} :
    nonEmptySplit split? = some split ↔ split? = some split ∧ split.keys ≠ [] := by
  cases split? with
  | none => simp [nonEmptySplit]
  | some split' =>
      rw [nonEmptySplit, ite_none_some_eq_some_iff (p := fun s : Split => s.isEmpty = true),
        OrderedMap.isEmpty_iff_keys]

theorem mem_modes_iff {d : SelectionDraft} {mode : Mode} : mode ∈ modes d ↔ d.Sets mode := by
  cases mode <;>
    simp [modes, SelectionDraft.Sets, Option.isSome_iff_exists, nonEmpty_eq_some_iff,
      nonEmptySplit_eq_some_iff]

end Lift

instance (d : SelectionDraft) : DecidablePred d.Sets :=
  fun _ => decidable_of_iff _ Lift.mem_modes_iff

structure RuleDraft.Spells (d : RuleDraft) (rule : TargetingRule) : Prop where
  name : rule.name = d.name
  query : rule.query = d.query
  selection : d.selection.Spells rule.selection
  disable : rule.disable = d.disable.getD false

structure StepDraft.Spells (d : StepDraft) (step : ScheduledStep) : Prop where
  date : SpellsDate d.date step.date
  targeting : Option.Rel (List.Forall₂ RuleDraft.Spells) d.targeting step.targeting
  default_rule : (d.defaultRule.getD .blank).Spells step.defaultRule

structure ExperimentDraft.Spells (d : ExperimentDraft) (e : Experiment) : Prop where
  start : MaySpellDate d.start e.start
  finish : MaySpellDate d.finish e.finish

namespace ConfigDraft

/-- All selections; a default that is missing is blank. -/
def selections (d : ConfigDraft) : List SelectionDraft :=
  d.defaultRule.getD .blank :: d.targeting.map RuleDraft.selection ++
    d.schedule.flatMap (fun step =>
      step.defaultRule.getD .blank :: (step.targeting.getD []).map RuleDraft.selection)

/-- The draft selects in one way in every place, and has a date for every step. -/
structure Definite (d : ConfigDraft) : Prop where
  selection : ∀ s ∈ d.selections, s.Definite
  step : ∀ step ∈ d.schedule, ∃ i, SpellsDate step.date i
  experiment : ∀ e, d.experiment = some e →
    (∃ start, MaySpellDate e.start start) ∧ ∃ finish, MaySpellDate e.finish finish

structure Spells (d : ConfigDraft) (c : FlagConfig) : Prop where
  variations : c.variations = d.variations
  targeting : List.Forall₂ RuleDraft.Spells d.targeting c.targeting
  default_rule : (d.defaultRule.getD .blank).Spells c.defaultRule
  schedule : List.Forall₂ StepDraft.Spells d.schedule c.schedule
  experiment : Option.Rel ExperimentDraft.Spells d.experiment c.experiment
  disable : c.disable = d.disable.getD false
  trackEvents : c.trackEvents = d.trackEvents.getD true
  version : c.version = Lift.nonEmpty d.version
  bucketingKey : c.bucketingKey = Lift.nonEmpty d.bucketingKey
  metadata : c.metadata = d.metadata

end ConfigDraft

/-! ### What a draft lifts to -/

namespace Lift

theorem requiredDate_eq_ok_iff {raw : Option String} {path : String} {i : Instant} :
    requiredDate raw path = .ok i ↔ SpellsDate raw i := by
  rw [requiredDate]
  cases hraw : nonEmpty raw with
  | none =>
      rw [nonEmpty_eq_none_iff] at hraw
      constructor
      · intro hdate
        contradiction
      · rintro ⟨text, htext, hset, _⟩
        exact absurd (hraw text htext) hset
  | some text =>
      obtain ⟨rfl, hset⟩ := nonEmpty_eq_some_iff.1 hraw
      simp only [date]
      constructor
      · intro hdate
        refine ⟨text, rfl, hset, ?_⟩
        split at hdate
        · next hread => rw [hread, Except.ok.inj hdate]
        · contradiction
      · rintro ⟨text', htext, _, hread⟩
        obtain rfl := Option.some.inj htext
        rw [hread]

theorem optionalDate_eq_ok_iff {raw : Option String} {path : String} {i? : Option Instant} :
    optionalDate raw path = .ok i? ↔ MaySpellDate raw i? := by
  have hrequired : ∀ i, requiredDate raw path = .ok i ↔ SpellsDate raw i :=
    fun _ => requiredDate_eq_ok_iff
  rw [optionalDate]
  cases hraw : nonEmpty raw with
  | none =>
      rw [nonEmpty_eq_none_iff] at hraw
      constructor
      · intro hunset
        obtain rfl := Except.ok.inj hunset
        exact .unset hraw
      · intro hspells
        cases hspells with
        | unset => rfl
        | set hdate =>
            obtain ⟨text, htext, hset, _⟩ := hdate
            exact absurd (hraw text htext) hset
  | some text =>
      rw [requiredDate, hraw] at hrequired
      rw [map_eq_ok_iff]
      simp only [hrequired]
      constructor
      · rintro ⟨i, hdate, rfl⟩
        exact .set hdate
      · intro hspells
        cases hspells with
        | unset hunset =>
            rw [nonEmpty_eq_none_iff.2 hunset] at hraw
            contradiction
        | set hdate => exact ⟨_, hdate, rfl⟩

theorem rampEnd_eq_ok_iff {d : Option RampEndDraft} {path which : String} {e : RampEnd} :
    rampEnd d path which = .ok e ↔ ∃ draft, d = some draft ∧ draft.Spells e := by
  cases d with
  | none => exact iff_of_false nofun nofun
  | some draft =>
      rw [rampEnd, map_eq_ok_iff]
      simp only [requiredDate_eq_ok_iff]
      constructor
      · rintro ⟨i, hdate, rfl⟩
        exact ⟨draft, rfl, rfl, rfl, hdate⟩
      · rintro ⟨_, hsame, hspells⟩
        obtain rfl := Option.some.inj hsame
        obtain ⟨variation, percentage, i⟩ := e
        obtain ⟨rfl, rfl, hdate⟩ := hspells
        exact ⟨i, hdate, rfl⟩

theorem ramp_eq_ok_iff {d : RampDraft} {path : String} {r : Ramp} :
    ramp d path = .ok r ↔ d.Spells r := by
  rw [ramp]
  simp only [bind_eq_ok_iff, rampEnd_eq_ok_iff]
  constructor
  · rintro ⟨initial, hinitial, final, hfinal, hsame⟩
    obtain rfl := Except.ok.inj hsame
    exact ⟨hinitial, hfinal⟩
  · intro hspells
    exact ⟨r.initial, hspells.initial, r.final, hspells.final, rfl⟩

theorem modes_eq_filter (d : SelectionDraft) :
    modes d = [.variation, .percentage, .progressive].filter (fun mode => d.Sets mode) := by
  simp only [← mem_modes_iff]
  cases hname : (nonEmpty d.variation).isSome <;>
    cases hsplit : (nonEmptySplit d.percentage).isSome <;>
      cases hramp : d.progressive.isSome <;> simp [modes, hname, hsplit, hramp]

theorem nodup_modes (d : SelectionDraft) : (modes d).Nodup := by
  rw [modes_eq_filter]
  exact List.Pairwise.filter _ (by decide)

theorem setsOnly_iff {d : SelectionDraft} {mode : Mode} :
    (∀ other, d.Sets other ↔ other = mode) ↔ modes d = [mode] := by
  simp only [← mem_modes_iff]
  constructor
  · intro honly
    have hnodup := nodup_modes d
    cases hmodes : modes d with
    | nil => exact absurd ((honly mode).2 rfl) (hmodes ▸ List.not_mem_nil)
    | cons first rest =>
        rw [hmodes] at honly hnodup
        obtain rfl := (honly first).1 List.mem_cons_self
        cases rest with
        | nil => rfl
        | cons second rest =>
            obtain rfl := (honly second).1 (List.mem_cons_of_mem _ List.mem_cons_self)
            exact absurd List.mem_cons_self (List.nodup_cons.1 hnodup).1
  · intro hmodes other
    rw [hmodes, List.mem_singleton]

theorem selection_eq_ok_iff {d : SelectionDraft} {path : String} {s : Selection} :
    selection d path = .ok s ↔ d.Spells s := by
  have hspells : d.Spells s ↔ modes d = [s.mode] ∧ d.Holds s := by
    rw [← setsOnly_iff]
    exact ⟨fun h => ⟨h.mode, h.data⟩, fun h => ⟨h.1, h.2⟩⟩
  rw [hspells]
  cases hname : nonEmpty d.variation <;> cases hsplit : nonEmptySplit d.percentage <;>
    cases hramp : d.progressive
  case some.none.none name =>
    have hset := (nonEmpty_eq_some_iff.1 hname).1
    simp only [selection, modes, hname, hsplit, hramp]
    constructor
    · intro hlift
      obtain rfl := Except.ok.inj hlift
      exact ⟨rfl, .variation hset⟩
    · rintro ⟨hmode, hdata⟩
      cases hdata with
      | variation hname' => rw [Option.some.inj (hset.symm.trans hname')]
      | percentage | progressive => cases hmode
  case none.some.none split =>
    have hset := (nonEmptySplit_eq_some_iff.1 hsplit).1
    simp only [selection, modes, hname, hsplit, hramp]
    constructor
    · intro hlift
      obtain rfl := Except.ok.inj hlift
      exact ⟨rfl, .percentage hset⟩
    · rintro ⟨hmode, hdata⟩
      cases hdata with
      | percentage hsplit' => rw [Option.some.inj (hset.symm.trans hsplit')]
      | variation | progressive => cases hmode
  case none.none.some draft =>
    simp only [selection, modes, hname, hsplit, hramp, map_eq_ok_iff, ramp_eq_ok_iff]
    constructor
    · rintro ⟨r, hramped, rfl⟩
      exact ⟨rfl, .progressive hramp hramped⟩
    · rintro ⟨hmode, hdata⟩
      cases hdata with
      | progressive hramp' hramped =>
          exact ⟨_, Option.some.inj (hramp.symm.trans hramp') ▸ hramped, rfl⟩
      | variation | percentage => cases hmode
  all_goals simp [selection, modes, hname, hsplit, hramp]

theorem rule_eq_ok_iff {d : RuleDraft} {path : String} {r : TargetingRule} :
    rule d path = .ok r ↔ d.Spells r := by
  rw [rule, map_eq_ok_iff]
  simp only [selection_eq_ok_iff]
  constructor
  · rintro ⟨s, hspells, rfl⟩
    exact ⟨rfl, rfl, hspells, rfl⟩
  · intro hspells
    obtain ⟨name, query, s, disable⟩ := r
    obtain ⟨rfl, rfl, hselection, rfl⟩ := hspells
    exact ⟨s, hselection, rfl⟩

theorem indexed_eq_ok_iff {α β : Type} {lift : α → String → Except Violation β} {path : String}
    {index : Nat} {drafts : List α} {items : List β} {R : α → β → Prop}
    (hlift : ∀ draft path b, lift draft path = .ok b ↔ R draft b) :
    indexed lift path index drafts = .ok items ↔ List.Forall₂ R drafts items := by
  induction drafts generalizing index items with
  | nil =>
      rw [List.forall₂_nil_left_iff, indexed, Except.ok.injEq, eq_comm]
  | cons draft rest ih =>
      rw [List.forall₂_cons_left_iff, indexed]
      simp only [bind_eq_ok_iff, hlift, ih]
      constructor
      · rintro ⟨b, hb, more, hmore, hsame⟩
        exact ⟨b, more, hb, hmore, (Except.ok.inj hsame).symm⟩
      · rintro ⟨b, more, hb, hmore, rfl⟩
        exact ⟨b, hb, more, hmore, rfl⟩

theorem rules_eq_ok_iff {drafts : List RuleDraft} {path : String} {rules : List TargetingRule} :
    Lift.rules drafts path = .ok rules ↔ List.Forall₂ RuleDraft.Spells drafts rules :=
  indexed_eq_ok_iff (fun _ _ _ => rule_eq_ok_iff)

/-- The rules of a step, if it has its own. -/
def stepRules (drafts? : Option (List RuleDraft)) (path : String) :
    Except Violation (Option (List TargetingRule)) :=
  match drafts? with
  | some drafts => (rules drafts path).map some
  | none => .ok none

theorem step_eq (d : StepDraft) (path : String) :
    step d path = (do
      let date ← requiredDate d.date (path ++ ".date")
      let targeting ← stepRules d.targeting (path ++ ".targeting")
      let defaultRule ← selection (d.defaultRule.getD .blank) (path ++ ".defaultRule")
      return ⟨date, targeting, defaultRule⟩) := by
  obtain ⟨date, targeting, defaultRule⟩ := d
  cases targeting with
  | none => rfl
  | some drafts => rfl

theorem stepRules_eq_ok_iff {drafts? : Option (List RuleDraft)} {path : String}
    {rules? : Option (List TargetingRule)} : stepRules drafts? path = .ok rules? ↔
      Option.Rel (List.Forall₂ RuleDraft.Spells) drafts? rules? := by
  cases drafts? with
  | none =>
      rw [stepRules, Except.ok.injEq]
      constructor
      · rintro rfl
        exact .none
      · rintro ⟨⟩
        rfl
  | some drafts =>
      rw [stepRules, map_eq_ok_iff]
      simp only [rules_eq_ok_iff]
      constructor
      · rintro ⟨rules, hspells, rfl⟩
        exact .some hspells
      · intro hspells
        cases hspells with
        | some hspells => exact ⟨_, hspells, rfl⟩

theorem step_eq_ok_iff {d : StepDraft} {path : String} {s : ScheduledStep} :
    step d path = .ok s ↔ d.Spells s := by
  rw [step_eq]
  simp only [bind_eq_ok_iff, requiredDate_eq_ok_iff, stepRules_eq_ok_iff, selection_eq_ok_iff]
  constructor
  · rintro ⟨date, hdate, targeting, htargeting, defaultRule, hdefault, hsame⟩
    obtain rfl := Except.ok.inj hsame
    exact ⟨hdate, htargeting, hdefault⟩
  · rintro ⟨hdate, htargeting, hdefault⟩
    exact ⟨_, hdate, _, htargeting, _, hdefault, rfl⟩

theorem experiment_eq_ok_iff {d? : Option ExperimentDraft} {e? : Option Experiment} :
    experiment d? = .ok e? ↔ Option.Rel ExperimentDraft.Spells d? e? := by
  cases d? with
  | none =>
      rw [experiment, Except.ok.injEq]
      constructor
      · rintro rfl
        exact .none
      · rintro ⟨⟩
        rfl
  | some d =>
      rw [experiment]
      simp only [bind_eq_ok_iff, optionalDate_eq_ok_iff]
      constructor
      · rintro ⟨start, hstart, finish, hfinish, hsame⟩
        obtain rfl := Except.ok.inj hsame
        exact .some ⟨hstart, hfinish⟩
      · intro hspells
        cases hspells with
        | some hspells => exact ⟨_, hspells.start, _, hspells.finish, rfl⟩

/-- A draft lifts to the configuration that it spells. -/
theorem config_eq_ok_iff {d : ConfigDraft} {c : FlagConfig} : config d = .ok c ↔ d.Spells c := by
  have hsteps : ∀ steps, indexed step "scheduledRollout" 0 d.schedule = .ok steps ↔
      List.Forall₂ StepDraft.Spells d.schedule steps :=
    fun _ => indexed_eq_ok_iff (fun _ _ _ => step_eq_ok_iff)
  rw [config]
  simp only [bind_eq_ok_iff, selection_eq_ok_iff, rules_eq_ok_iff, experiment_eq_ok_iff, hsteps]
  constructor
  · rintro ⟨defaultRule, hdefault, targeting, htargeting, schedule, hschedule, experiment,
      hexperiment, hsame⟩
    obtain rfl := Except.ok.inj hsame
    exact ⟨rfl, htargeting, hdefault, hschedule, hexperiment, rfl, rfl, rfl, rfl, rfl⟩
  · intro hspells
    obtain ⟨variations, targeting, defaultRule, schedule, experiment, disable, trackEvents, version,
      bucketingKey, metadata⟩ := c
    obtain ⟨rfl, htargeting, hdefault, hschedule, hexperiment, rfl, rfl, rfl, rfl, rfl⟩ := hspells
    exact ⟨_, hdefault, _, htargeting, _, hschedule, _, hexperiment, rfl⟩

end Lift

/-! ### What definite drafts spell -/

theorem exists_forall₂_iff {α β : Type} {R : α → β → Prop} {drafts : List α} :
    (∃ items, List.Forall₂ R drafts items) ↔ ∀ draft ∈ drafts, ∃ b, R draft b := by
  induction drafts with
  | nil => exact iff_of_true ⟨[], .nil⟩ (List.forall_mem_nil _)
  | cons draft rest ih =>
      rw [List.forall_mem_cons, ← ih]
      simp only [List.forall₂_cons_left_iff]
      constructor
      · rintro ⟨_, b, items, hb, hitems, rfl⟩
        exact ⟨⟨b, hb⟩, items, hitems⟩
      · rintro ⟨⟨b, hb⟩, items, hitems⟩
        exact ⟨b :: items, b, items, hb, hitems, rfl⟩

theorem RampEndDraft.exists_spells_iff {d : RampEndDraft} :
    (∃ e, d.Spells e) ↔ ∃ i, SpellsDate d.date i := by
  constructor
  · rintro ⟨e, hspells⟩
    exact ⟨e.date, hspells.date⟩
  · rintro ⟨i, hdate⟩
    exact ⟨⟨d.variation, d.percentage, i⟩, rfl, rfl, hdate⟩

theorem RampDraft.exists_spells_iff {d : RampDraft} : (∃ r, d.Spells r) ↔ d.Definite := by
  constructor
  · rintro ⟨r, ⟨initial, hinitial, hfirst⟩, ⟨final, hfinal, hlast⟩⟩
    exact ⟨⟨initial, hinitial, _, hfirst.date⟩, ⟨final, hfinal, _, hlast.date⟩⟩
  · rintro ⟨⟨initial, hinitial, hfirst⟩, ⟨final, hfinal, hlast⟩⟩
    obtain ⟨first, hfirst⟩ := RampEndDraft.exists_spells_iff.2 hfirst
    obtain ⟨last, hlast⟩ := RampEndDraft.exists_spells_iff.2 hlast
    exact ⟨⟨first, last⟩, ⟨initial, hinitial, hfirst⟩, ⟨final, hfinal, hlast⟩⟩

theorem SelectionDraft.exists_spells_iff {d : SelectionDraft} :
    (∃ s, d.Spells s) ↔ d.Definite := by
  constructor
  · rintro ⟨s, hmode, hdata⟩
    refine ⟨⟨s.mode, hmode⟩, fun ramp hramp => ?_⟩
    have hprogressive := (hmode .progressive).1 ⟨ramp, hramp⟩
    cases hdata with
    | variation | percentage => contradiction
    | progressive hramp' hspells =>
        obtain rfl := Option.some.inj (hramp.symm.trans hramp')
        exact RampDraft.exists_spells_iff.1 ⟨_, hspells⟩
  · rintro ⟨⟨mode, hmode⟩, hdefinite⟩
    have hset := (hmode mode).2 rfl
    cases mode with
    | variation =>
        obtain ⟨name, hname, _⟩ := hset
        exact ⟨.variation name, hmode, .variation hname⟩
    | percentage =>
        obtain ⟨split, hsplit, _⟩ := hset
        exact ⟨.percentage split, hmode, .percentage hsplit⟩
    | progressive =>
        obtain ⟨draft, hdraft⟩ := hset
        obtain ⟨ramp, hspells⟩ := RampDraft.exists_spells_iff.2 (hdefinite draft hdraft)
        exact ⟨.progressive ramp, hmode, .progressive hdraft hspells⟩

theorem RuleDraft.exists_spells_iff {d : RuleDraft} :
    (∃ rule, d.Spells rule) ↔ d.selection.Definite := by
  rw [← SelectionDraft.exists_spells_iff]
  constructor
  · rintro ⟨rule, hspells⟩
    exact ⟨rule.selection, hspells.selection⟩
  · rintro ⟨s, hspells⟩
    exact ⟨⟨d.name, d.query, s, d.disable.getD false⟩, rfl, rfl, hspells, rfl⟩

theorem exists_forall₂_spells_iff {rules : List RuleDraft} :
    (∃ typed, List.Forall₂ RuleDraft.Spells rules typed) ↔
      ∀ rule ∈ rules, rule.selection.Definite := by
  simp only [exists_forall₂_iff, RuleDraft.exists_spells_iff]

theorem StepDraft.exists_spells_iff {d : StepDraft} :
    (∃ step, d.Spells step) ↔ (∃ i, SpellsDate d.date i) ∧
      (d.defaultRule.getD .blank).Definite ∧
        ∀ rule ∈ d.targeting.getD [], rule.selection.Definite := by
  have htargeting : (∃ typed, Option.Rel (List.Forall₂ RuleDraft.Spells) d.targeting typed) ↔
      ∀ rule ∈ d.targeting.getD [], rule.selection.Definite := by
    cases d.targeting with
    | none => exact iff_of_true ⟨none, .none⟩ (List.forall_mem_nil _)
    | some rules =>
        rw [Option.getD_some, ← exists_forall₂_spells_iff]
        constructor
        · rintro ⟨_, ⟨⟩⟩
          exact ⟨_, ‹_›⟩
        · rintro ⟨typed, hspells⟩
          exact ⟨some typed, .some hspells⟩
  rw [← htargeting, ← SelectionDraft.exists_spells_iff]
  constructor
  · rintro ⟨step, hdate, hrules, hdefault⟩
    exact ⟨⟨_, hdate⟩, ⟨_, hdefault⟩, ⟨_, hrules⟩⟩
  · rintro ⟨⟨date, hdate⟩, ⟨defaultRule, hdefault⟩, ⟨targeting, hrules⟩⟩
    exact ⟨⟨date, targeting, defaultRule⟩, hdate, hrules, hdefault⟩

namespace ConfigDraft

theorem forall_mem_selections_iff {d : ConfigDraft} {P : SelectionDraft → Prop} :
    (∀ s ∈ d.selections, P s) ↔ P (d.defaultRule.getD .blank) ∧
      (∀ rule ∈ d.targeting, P rule.selection) ∧ ∀ step ∈ d.schedule,
        P (step.defaultRule.getD .blank) ∧ ∀ rule ∈ step.targeting.getD [], P rule.selection := by
  simp only [selections, List.cons_append, List.forall_mem_cons, List.forall_mem_append,
    List.forall_mem_map, List.forall_mem_flatMap]

theorem exists_experiment_iff {d? : Option ExperimentDraft} :
    (∃ e?, Option.Rel ExperimentDraft.Spells d? e?) ↔ ∀ d, d? = some d →
      (∃ start, MaySpellDate d.start start) ∧ ∃ finish, MaySpellDate d.finish finish := by
  cases d? with
  | none => exact iff_of_true ⟨none, .none⟩ nofun
  | some d =>
      constructor
      · rintro ⟨_, hspells⟩ d' hsame
        obtain rfl := Option.some.inj hsame
        cases hspells with
        | some hspells => exact ⟨⟨_, hspells.start⟩, ⟨_, hspells.finish⟩⟩
      · intro hdates
        obtain ⟨⟨start, hstart⟩, ⟨finish, hfinish⟩⟩ := hdates d rfl
        exact ⟨some ⟨start, finish⟩, .some ⟨hstart, hfinish⟩⟩

theorem exists_spells_iff {d : ConfigDraft} : (∃ c, d.Spells c) ↔ d.Definite := by
  have hsteps : (∃ steps, List.Forall₂ StepDraft.Spells d.schedule steps) ↔ _ := exists_forall₂_iff
  simp only [StepDraft.exists_spells_iff] at hsteps
  constructor
  · rintro ⟨c, hspells⟩
    have hschedule := hsteps.1 ⟨_, hspells.schedule⟩
    refine ⟨forall_mem_selections_iff.2 ⟨?_, ?_, fun step hstep => (hschedule step hstep).2⟩,
      fun step hstep => (hschedule step hstep).1, ?_⟩
    · exact SelectionDraft.exists_spells_iff.1 ⟨_, hspells.default_rule⟩
    · exact exists_forall₂_spells_iff.1 ⟨_, hspells.targeting⟩
    · exact exists_experiment_iff.1 ⟨_, hspells.experiment⟩
  · rintro ⟨hselections, hdates, hexperiment⟩
    obtain ⟨hdefault, hrules, hschedule⟩ := forall_mem_selections_iff.1 hselections
    obtain ⟨defaultRule, hdefault⟩ := SelectionDraft.exists_spells_iff.2 hdefault
    obtain ⟨targeting, hrules⟩ := exists_forall₂_spells_iff.2 hrules
    obtain ⟨schedule, hschedule⟩ :=
      hsteps.2 (fun step hstep => ⟨hdates step hstep, hschedule step hstep⟩)
    obtain ⟨experiment, hexperiment⟩ := exists_experiment_iff.2 hexperiment
    exact ⟨{
      variations := d.variations
      targeting, defaultRule, schedule, experiment
      disable := d.disable.getD false
      trackEvents := d.trackEvents.getD true
      version := Lift.nonEmpty d.version
      bucketingKey := Lift.nonEmpty d.bucketingKey
      metadata := d.metadata },
      rfl, hrules, hdefault, hschedule, hexperiment, rfl, rfl, rfl, rfl, rfl⟩

end ConfigDraft

end FlagGovernance
