import FlagGovernance.Proofs.Config.Definite
import FlagGovernance.Proofs.Precedence
/-
The fault that a draft is refused for.

`Faulty` says what is wrong with a draft, at which rank it stands in the order of lifting, and
how it is told.  A draft that does not lift is refused for what stands at the least rank, and
so is its document: no rule of typed configurations is looked at before.
-/

namespace FlagGovernance

/-- What is wrong with a date that may be left out. -/
inductive Misdated (path : String) (raw : Option String) : Violation → Prop
  | malformed {text : String} (htext : raw = some text) (hset : text ≠ "")
      (hdate : ∀ i, Instant.ofRfc3339 text ≠ .ok i) : Misdated path raw ⟨path, .invalidDate text⟩

/-- What is wrong with a date that has to be there. -/
inductive Undated (path : String) (raw : Option String) : Violation → Prop
  | absent (hunset : ∀ text, raw = some text → text = "") :
      Undated path raw ⟨path, .missingField "date"⟩
  | malformed {v : Violation} (hdate : Misdated path raw v) : Undated path raw v

/-- The path of an item of a list. -/
def itemPath (path : String) (i : Nat) : String := path ++ "[" ++ toString i ++ "]"

/-- What is wrong with one end of a ramp. -/
inductive RampEndDraft.Faulty (path which : String) : Option RampEndDraft → Violation → Prop
  | absent : Faulty path which none ⟨path ++ "." ++ which, .missingField which⟩
  | date {d : RampEndDraft} {v : Violation}
      (hdate : Undated (path ++ "." ++ which ++ ".date") d.date v) : Faulty path which (some d) v

/-- What is wrong with a selection: the modes that it sets, then the ends of its ramp. -/
inductive SelectionDraft.Faulty (d : SelectionDraft) (path : String) : Rank → Violation → Prop
  | unset (hunset : ∀ mode, ¬ d.Sets mode) : d.Faulty path [0] ⟨path, .missingMode⟩
  | conflict {mode other : Mode} (hmode : d.Sets mode) (hother : d.Sets other)
      (hdistinct : mode ≠ other) : d.Faulty path [0] ⟨path, .conflictingModes
        ([.variation, .percentage, .progressive].filter (fun mode => d.Sets mode))⟩
  | initial {ramp : RampDraft} {v : Violation} (hramp : d.progressive = some ramp)
      (hfault : RampEndDraft.Faulty (path ++ ".progressiveRollout") "initial" ramp.initial v) :
      d.Faulty path [1] v
  | final {ramp : RampDraft} {v : Violation} (hramp : d.progressive = some ramp)
      (hfault : RampEndDraft.Faulty (path ++ ".progressiveRollout") "end" ramp.final v) :
      d.Faulty path [2] v

/-- What is wrong with a step: its date, then its rules, then its default. -/
inductive StepDraft.Faulty (d : StepDraft) (path : String) : Rank → Violation → Prop
  | date {v : Violation} (hdate : Undated (path ++ ".date") d.date v) : d.Faulty path [0] v
  | rule {rules : List RuleDraft} {i : Nat} {rule : RuleDraft} {rank : Rank} {v : Violation}
      (hrules : d.targeting = some rules) (hrule : rules[i]? = some rule)
      (hfault : rule.selection.Faulty (itemPath (path ++ ".targeting") i) rank v) :
      d.Faulty path (1 :: i :: rank) v
  | defaultRule {rank : Rank} {v : Violation}
      (hfault : (d.defaultRule.getD .blank).Faulty (path ++ ".defaultRule") rank v) :
      d.Faulty path (2 :: rank) v

/-- What is wrong with a draft: its default, then its rules, its steps and its experiment. -/
inductive ConfigDraft.Faulty (d : ConfigDraft) : Rank → Violation → Prop
  | defaultRule {rank : Rank} {v : Violation}
      (hfault : (d.defaultRule.getD .blank).Faulty "defaultRule" rank v) : d.Faulty (0 :: rank) v
  | rule {i : Nat} {rule : RuleDraft} {rank : Rank} {v : Violation}
      (hrule : d.targeting[i]? = some rule)
      (hfault : rule.selection.Faulty (itemPath "targeting" i) rank v) : d.Faulty (1 :: i :: rank) v
  | step {i : Nat} {step : StepDraft} {rank : Rank} {v : Violation}
      (hstep : d.schedule[i]? = some step)
      (hfault : step.Faulty (itemPath "scheduledRollout" i) rank v) : d.Faulty (2 :: i :: rank) v
  | start {e : ExperimentDraft} {v : Violation} (hexperiment : d.experiment = some e)
      (hdate : Misdated "experimentation.start" e.start v) : d.Faulty [3, 0] v
  | finish {e : ExperimentDraft} {v : Violation} (hexperiment : d.experiment = some e)
      (hdate : Misdated "experimentation.end" e.finish v) : d.Faulty [3, 1] v

namespace Lift

theorem fault?_date_iff {text path : String} {v : Violation} :
    fault? (date text path) = some v ↔
      (∀ i, Instant.ofRfc3339 text ≠ .ok i) ∧ ⟨path, .invalidDate text⟩ = v := by
  rw [date]
  cases Instant.ofRfc3339 text with
  | ok i => simp [fault?]
  | error => simp [fault?]

theorem optionalDate_fault_iff {raw : Option String} {path : String} {v : Violation} :
    fault? (optionalDate raw path) = some v ↔ Misdated path raw v := by
  rw [optionalDate]
  cases hraw : nonEmpty raw with
  | none =>
      rw [nonEmpty_eq_none_iff] at hraw
      constructor
      · intro hfault
        contradiction
      · intro hmisdated
        cases hmisdated with
        | malformed htext hset => exact absurd (hraw _ htext) hset
  | some text =>
      obtain ⟨rfl, hset⟩ := nonEmpty_eq_some_iff.1 hraw
      simp only [fault?_map, fault?_date_iff]
      constructor
      · rintro ⟨hdate, rfl⟩
        exact .malformed rfl hset hdate
      · intro hmisdated
        cases hmisdated with
        | malformed htext _ hdate =>
            obtain rfl := Option.some.inj htext
            exact ⟨hdate, rfl⟩

theorem requiredDate_fault_iff {raw : Option String} {path : String} {v : Violation} :
    fault? (requiredDate raw path) = some v ↔ Undated path raw v := by
  have hoptional : fault? (optionalDate raw path) = some v ↔ Misdated path raw v :=
    optionalDate_fault_iff
  rw [requiredDate]
  cases hraw : nonEmpty raw with
  | none =>
      rw [nonEmpty_eq_none_iff] at hraw
      rw [fault?, Option.some.injEq]
      constructor
      · rintro rfl
        exact .absent hraw
      · intro hundated
        cases hundated with
        | absent => rfl
        | malformed hdate =>
            cases hdate with
            | malformed htext hset => exact absurd (hraw _ htext) hset
  | some text =>
      rw [optionalDate, hraw, fault?_map] at hoptional
      rw [hoptional]
      refine ⟨.malformed, fun hundated => ?_⟩
      cases hundated with
      | absent hunset =>
          rw [nonEmpty_eq_none_iff.2 hunset] at hraw
          contradiction
      | malformed hdate => exact hdate

theorem rampEnd_fault_iff {d : Option RampEndDraft} {path which : String} {v : Violation} :
    fault? (rampEnd d path which) = some v ↔ RampEndDraft.Faulty path which d v := by
  cases d with
  | none =>
      rw [rampEnd, fault?, Option.some.injEq]
      constructor
      · rintro rfl
        exact .absent
      · rintro ⟨⟩
        rfl
  | some d =>
      rw [rampEnd, fault?_map, requiredDate_fault_iff]
      refine ⟨.date, ?_⟩
      rintro ⟨⟩
      assumption

/-- What is wrong with the modes that a draft sets. -/
def modeFault? (d : SelectionDraft) (path : String) : Option Violation :=
  match modes d with
  | [] => some ⟨path, .missingMode⟩
  | [_] => none
  | found => some ⟨path, .conflictingModes found⟩

theorem fault?_selection (d : SelectionDraft) (path : String) :
    fault? (selection d path) = (modeFault? d path).or
      (d.progressive.bind (fun r => fault? (ramp r (path ++ ".progressiveRollout")))) := by
  cases hname : nonEmpty d.variation <;> cases hsplit : nonEmptySplit d.percentage <;>
    cases hramp : d.progressive
  -- a ramp alone is lifted, and every other setting is answered for its modes
  case none.none.some r =>
    simp only [selection, modeFault?, modes, hname, hsplit, hramp, fault?_map]
    rfl
  all_goals simp [selection, modeFault?, modes, hname, hsplit, hramp, fault?]

theorem modeFault?_eq_some_iff {d : SelectionDraft} {path : String} {v : Violation} :
    modeFault? d path = some v ↔ d.Faulty path [0] v := by
  have hset : ∀ mode, d.Sets mode ↔ mode ∈ modes d := fun mode => mem_modes_iff.symm
  have hnodup := nodup_modes d
  have hfilter := modes_eq_filter d
  rw [modeFault?]
  cases hmodes : modes d with
  | nil =>
      simp only [hmodes, List.not_mem_nil, iff_false] at hset
      rw [Option.some.injEq]
      constructor
      · rintro rfl
        exact .unset hset
      · intro hfault
        cases hfault with
        | unset => rfl
        | conflict hmode => exact absurd hmode (hset _)
  | cons mode rest =>
      cases rest with
      | nil =>
          simp only [hmodes, List.mem_singleton] at hset
          refine iff_of_false nofun (fun hfault => ?_)
          cases hfault with
          | unset hunset => exact hunset mode ((hset mode).2 rfl)
          | conflict hmode hother hdistinct =>
              exact hdistinct (((hset _).1 hmode).trans ((hset _).1 hother).symm)
      | cons other rest =>
          rw [hmodes, List.nodup_cons] at hnodup
          rw [hmodes] at hset
          rw [Option.some.injEq, ← hmodes, hfilter]
          have hmode := (hset mode).2 List.mem_cons_self
          have hother := (hset other).2 (List.mem_cons_of_mem _ List.mem_cons_self)
          constructor
          · rintro rfl
            exact .conflict hmode hother (fun hsame => hnodup.1 (hsame ▸ List.mem_cons_self))
          · intro hfault
            cases hfault with
            | unset hunset => exact absurd hmode (hunset mode)
            | conflict => rfl

theorem ramp_tellsFirst (d : SelectionDraft) (path : String) :
    TellsFirst (d.progressive.bind (fun r => fault? (ramp r (path ++ ".progressiveRollout"))))
      (Numbered 1 (fun i rank => d.Faulty path (i :: rank))) := by
  cases hramp : d.progressive with
  | none =>
      refine .nil (fun i rank v hfrom hfault => ?_)
      cases hfault with
      | unset | conflict => omega
      | initial hramp' | final hramp' => exact nomatch hramp.symm.trans hramp'
  | some r =>
      have hsame : ∀ r', d.progressive = some r' → r' = r :=
        fun r' hramp' => Option.some.inj (hramp'.symm.trans hramp)
      refine .bind (.of_iff (fun rank v => ?_)) (fun _ _ => .bind (.of_iff (fun rank v => ?_))
        (fun _ _ => .nil (fun i rank v hfrom hfault => ?_)))
      · rw [rampEnd_fault_iff]
        constructor
        · intro hfault
          cases hfault with
          | initial hramp' hfault =>
              obtain rfl := hsame _ hramp'
              exact ⟨rfl, hfault⟩
        · rintro ⟨rfl, hfault⟩
          exact .initial hramp hfault
      · rw [rampEnd_fault_iff]
        constructor
        · intro hfault
          cases hfault with
          | final hramp' hfault =>
              obtain rfl := hsame _ hramp'
              exact ⟨rfl, hfault⟩
        · rintro ⟨rfl, hfault⟩
          exact .final hramp hfault
      · cases hfault with
        | unset | conflict | initial | final => omega

theorem selection_tellsFirst (d : SelectionDraft) (path : String) :
    TellsFirst (fault? (selection d path)) (d.Faulty path) := by
  rw [fault?_selection]
  refine .parts nofun (.cons (.of_iff (fun rank v => ?_)) (fun _ => ramp_tellsFirst d path))
  rw [modeFault?_eq_some_iff]
  constructor
  · intro hfault
    cases hfault with
    | unset hunset => exact ⟨rfl, .unset hunset⟩
    | conflict hmode hother hdistinct => exact ⟨rfl, .conflict hmode hother hdistinct⟩
  · rintro ⟨rfl, hfault⟩
    exact hfault

theorem rule_tellsFirst (d : RuleDraft) (path : String) :
    TellsFirst (fault? (rule d path)) (d.selection.Faulty path) :=
  (selection_tellsFirst d.selection path).map _

/-- Items are lifted in their turn, each at its own path. -/
theorem fault?_indexed {α β : Type} (lift : α → String → Except Violation β) (path : String)
    (start : Nat) (drafts : List α) : fault? (indexed lift path start drafts) =
      (drafts.zipIdx start).findSome? (fun x => fault? (lift x.1 (itemPath path x.2))) := by
  induction drafts generalizing start with
  | nil => rfl
  | cons draft rest ih =>
      rw [List.zipIdx_cons, List.findSome?_cons, ← ih]
      have hfirst : indexed lift path start (draft :: rest) =
          lift draft (itemPath path start) >>= fun b =>
            (indexed lift path (start + 1) rest).map (b :: ·) := rfl
      rw [hfirst]
      cases lift draft (itemPath path start) with
      | error => rfl
      | ok b => exact fault?_map _ _

theorem items_tellsFirst {α β : Type} {lift : α → String → Except Violation β} {path : String}
    {drafts : List α} {P : Nat → Rank → Violation → Prop}
    (hitems : ∀ i draft, drafts[i]? = some draft →
      TellsFirst (fault? (lift draft (itemPath path i))) (P i))
    (honly : ∀ i rank v, P i rank v → i < drafts.length) :
    TellsFirst (fault? (indexed lift path 0 drafts)) (Numbered 0 P) := by
  rw [fault?_indexed]
  refine .findSome? (fun i found hfound => ?_) (fun i rank v hfault => ?_)
  · rw [List.getElem?_zipIdx, Nat.zero_add] at hfound
    obtain ⟨draft, hdraft, rfl⟩ := Option.map_eq_some_iff.1 hfound
    exact hitems i draft hdraft
  · rw [List.length_zipIdx]
    exact honly i rank v hfault

theorem step_tellsFirst (d : StepDraft) (path : String) :
    TellsFirst (fault? (step d path)) (d.Faulty path) := by
  rw [step_eq]
  refine .parts nofun (.bind (.of_iff (fun rank v => ?_)) (fun _ _ => .bind ?_
    (fun _ _ => .bind ((selection_tellsFirst _ _).congr (fun rank v => ⟨?_, .defaultRule⟩))
      (fun _ _ => .nil ?_))))
  · rw [requiredDate_fault_iff]
    constructor
    · intro hfault
      cases hfault with
      | date hdate => exact ⟨rfl, hdate⟩
    · rintro ⟨rfl, hdate⟩
      exact .date hdate
  · cases hrules : d.targeting with
    | none =>
        refine .none (fun rank v hfault => ?_)
        cases hfault with
        | rule hrules' => exact nomatch hrules.symm.trans hrules'
    | some rules =>
        refine .map (.parts nofun (items_tellsFirst (fun i rule hrule => ?_)
          (fun i rank v hfault => ?_))) _
        · refine (rule_tellsFirst rule _).congr (fun rank v => ⟨?_, .rule hrules hrule⟩)
          intro hfault
          cases hfault with
          | rule hrules' hrule' hfault =>
              obtain rfl := Option.some.inj (hrules.symm.trans hrules')
              obtain rfl := Option.some.inj (hrule.symm.trans hrule')
              exact hfault
        · cases hfault with
          | rule hrules' hrule =>
              obtain rfl := Option.some.inj (hrules.symm.trans hrules')
              exact (List.getElem?_eq_some_iff.1 hrule).1
  · intro hfault
    cases hfault with
    | defaultRule hfault => exact hfault
  · intro i rank v hfrom hfault
    cases hfault with
    | date | rule | defaultRule => omega

theorem experiment_tellsFirst (d : ConfigDraft) :
    TellsFirst (fault? (experiment d.experiment)) (fun rank => d.Faulty (3 :: rank)) := by
  cases hexperiment : d.experiment with
  | none =>
      refine .none (fun rank v hfault => ?_)
      cases hfault with
      | start hsome | finish hsome => exact nomatch hexperiment.symm.trans hsome
  | some e =>
      have hsame : ∀ e', d.experiment = some e' → e' = e :=
        fun e' hexperiment' => Option.some.inj (hexperiment'.symm.trans hexperiment)
      refine .parts nofun (.bind (.of_iff (fun rank v => ?_)) (fun _ _ => .bind
        (.of_iff (fun rank v => ?_)) (fun _ _ => .nil (fun i rank v hfrom hfault => ?_))))
      · rw [optionalDate_fault_iff]
        constructor
        · intro hfault
          cases hfault with
          | start hexperiment' hdate =>
              obtain rfl := hsame _ hexperiment'
              exact ⟨rfl, hdate⟩
        · rintro ⟨rfl, hdate⟩
          exact .start hexperiment hdate
      · rw [optionalDate_fault_iff]
        constructor
        · intro hfault
          cases hfault with
          | finish hexperiment' hdate =>
              obtain rfl := hsame _ hexperiment'
              exact ⟨rfl, hdate⟩
        · rintro ⟨rfl, hdate⟩
          exact .finish hexperiment hdate
      · cases hfault with
        | start | finish => omega

/-- What is told of a draft that does not lift. -/
theorem config_tellsFirst (d : ConfigDraft) : TellsFirst (fault? (config d)) d.Faulty := by
  refine .parts nofun (.bind ((selection_tellsFirst _ _).congr (fun rank v => ⟨?_, .defaultRule⟩))
    (fun _ _ => .bind (.parts nofun (items_tellsFirst (fun i rule hrule => ?_) ?_))
      (fun _ _ => .bind (.parts nofun (items_tellsFirst (fun i step hstep => ?_) ?_))
        (fun _ _ => .bind (experiment_tellsFirst d) (fun _ _ => .nil ?_)))))
  · intro hfault
    cases hfault with
    | defaultRule hfault => exact hfault
  · refine (rule_tellsFirst rule _).congr (fun rank v => ⟨?_, .rule hrule⟩)
    intro hfault
    cases hfault with
    | rule hrule' hfault =>
        obtain rfl := Option.some.inj (hrule.symm.trans hrule')
        exact hfault
  · intro i rank v hfault
    cases hfault with
    | rule hrule => exact (List.getElem?_eq_some_iff.1 hrule).1
  · refine (step_tellsFirst step _).congr (fun rank v => ⟨?_, .step hstep⟩)
    intro hfault
    cases hfault with
    | step hstep' hfault =>
        obtain rfl := Option.some.inj (hstep.symm.trans hstep')
        exact hfault
  · intro i rank v hfault
    cases hfault with
    | step hstep => exact (List.getElem?_eq_some_iff.1 hstep).1
  · intro i rank v hfrom hfault
    cases hfault with
    | defaultRule | rule | step | start | finish => omega

end Lift

theorem validateDocument_of_draft {doc : Json} {d : ConfigDraft}
    (hdoc : ConfigDraft.ofDocument doc = .ok d) (hvaried : d.variations.keys ≠ []) :
    validateDocument doc = (do
      let config ← Lift.config d
      config.validate
      return config) := by
  rw [ne_eq, ← OrderedMap.isEmpty_iff_keys] at hvaried
  rw [validateDocument, bind_of_ok hdoc, if_neg hvaried]

namespace Sample

/-- A rule that sets two modes, a step without a date, an experiment that ends in a month
thirteen, and names of no variation. -/
def conflictedDocument : Json :=
  .object [
    ("defaultRule", .object [("variation", .string "gone")]),
    ("experimentation", .object [("end", .string "2016-13-01T00:00:00Z")]),
    ("scheduledRollout", .array [.object []]),
    ("targeting", .array [.object [("percentage", .object [("on", .number (.integer 1))]),
      ("progressiveRollout", .object []), ("variation", .string "")]]),
    ("variations", .object [("on", .bool true)])]

end Sample

namespace Lift

/-- A draft that was read lifts just when it is definite, and to what it spells.  Of any other
the first fault is told, and that is the answer to the document: no rule of typed
configurations is looked at. -/
theorem definite_or_first_fault {doc : Json} {d : ConfigDraft}
    (hdoc : ConfigDraft.ofDocument doc = .ok d) (hvaried : d.variations.keys ≠ []) :
    ((∃ c, config d = .ok c) ↔ d.Definite) ∧
    (∀ c, config d = .ok c ↔ d.Spells c) ∧
    (∀ v, config d = .error v ↔
      ∃ rank, d.Faulty rank v ∧ ∀ earlier w, earlier < rank → ¬ d.Faulty earlier w) ∧
    ∀ v, config d = .error v → validateDocument doc = .error v := by
  refine ⟨?_, fun c => config_eq_ok_iff, fun v => ?_, fun v hfault => ?_⟩
  · simp only [config_eq_ok_iff, ConfigDraft.exists_spells_iff]
  · rw [← fault?_eq_some_iff, (config_tellsFirst d).eq_some_iff]
  · rw [validateDocument_of_draft hdoc hvaried, hfault]
    rfl

/-- The draft of the ramped document lifts.  That of the conflicted one is refused for the
modes of its rule, though its default names no variation and its step has no date. -/
theorem ramped_definite_conflicted_not :
    (∃ d, ConfigDraft.ofDocument Sample.rampedDocument = .ok d ∧ d.Definite) ∧
    ∃ d, ConfigDraft.ofDocument Sample.conflictedDocument = .ok d ∧ ¬ d.Definite ∧
      validateDocument Sample.conflictedDocument =
        .error ⟨"targeting[0]", .conflictingModes [.percentage, .progressive]⟩ := by
  constructor
  · have hread : ∃ d, ConfigDraft.ofDocument Sample.rampedDocument = .ok d ∧
        d.variations.keys ≠ [] ∧ fault? (config d) = none :=
      ⟨_, rfl, by decide, by decide +kernel⟩
    obtain ⟨d, hdoc, hvaried, hlift⟩ := hread
    exact ⟨d, hdoc, (definite_or_first_fault hdoc hvaried).1.1 (exists_ok_of_fault? hlift)⟩
  · have hread : ∃ d, ConfigDraft.ofDocument Sample.conflictedDocument = .ok d ∧
        d.variations.keys ≠ [] ∧ fault? (config d) =
          some ⟨"targeting[0]", .conflictingModes [.percentage, .progressive]⟩ :=
      ⟨_, rfl, by decide, by decide +kernel⟩
    obtain ⟨d, hdoc, hvaried, hfault⟩ := hread
    obtain ⟨hlifts, -, -, hrefused⟩ := definite_or_first_fault hdoc hvaried
    refine ⟨d, hdoc, fun hdefinite => ?_, hrefused _ (eq_error_of_fault? hfault)⟩
    obtain ⟨c, hc⟩ := hlifts.2 hdefinite
    exact nomatch hc.symm.trans (eq_error_of_fault? hfault)

end Lift

end FlagGovernance
