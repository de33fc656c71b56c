import FlagGovernance.Config.Draft
import FlagGovernance.Config.Encode
import FlagGovernance.Proofs.Decode.Laws
/-
What the stored form of a configuration is read as.

A configuration has a draft that says all that it says: its one selection alone in
every place, its dates as texts.  If its numbers have a JSON form, reading the
document that is stored gives that draft.
-/

namespace FlagGovernance

open Decode Record

def RampEnd.draft (e : RampEnd) : RampEndDraft := ⟨e.variation, e.percentage, some e.date.text⟩

def Ramp.draft (r : Ramp) : RampDraft := ⟨some r.initial.draft, some r.final.draft⟩

def Selection.draft : Selection → SelectionDraft
  | .variation name => ⟨some name, none, none⟩
  | .percentage split => ⟨none, some split, none⟩
  | .progressive ramp => ⟨none, none, some ramp.draft⟩

def TargetingRule.draft (r : TargetingRule) : RuleDraft :=
  ⟨r.name, r.query, r.selection.draft, if r.disable then some true else none⟩

def ScheduledStep.draft (s : ScheduledStep) : StepDraft :=
  ⟨some s.date.text, s.targeting.map (·.map TargetingRule.draft), some s.defaultRule.draft⟩

def Experiment.draft (e : Experiment) : ExperimentDraft :=
  ⟨e.start.map Instant.text, e.finish.map Instant.text⟩

def FlagConfig.draft (c : FlagConfig) : ConfigDraft where
  variations := c.variations
  targeting := c.targeting.map TargetingRule.draft
  defaultRule := some c.defaultRule.draft
  schedule := c.schedule.map ScheduledStep.draft
  experiment := c.experiment.map Experiment.draft
  disable := some c.disable
  trackEvents := some c.trackEvents
  version := c.version
  bucketingKey := c.bucketingKey
  metadata := c.metadata

/-- The value is that of a document. -/
def Variation.Storable (x : Variation) : Prop := ∃ v : Json, v.WellFormed ∧ .ofJson v = x

def RampEnd.Storable (e : RampEnd) : Prop := ∀ value, e.percentage = some value → value.isFinite = true

structure Ramp.Storable (r : Ramp) : Prop where
  initial : r.initial.Storable
  final : r.final.Storable

def Split.Storable (s : Split) : Prop := ∀ weight ∈ s.values, weight.isFinite = true

/-- The numbers of the selection have a JSON form. -/
def Selection.Storable : Selection → Prop
  | .variation _ => True
  | .percentage split => Split.Storable split
  | .progressive ramp => ramp.Storable

structure ScheduledStep.Storable (s : ScheduledStep) : Prop where
  targeting : ∀ rules, s.targeting = some rules → ∀ rule ∈ rules, rule.selection.Storable
  default_rule : s.defaultRule.Storable

/-- All of the configuration has a JSON form. -/
structure FlagConfig.Storable (c : FlagConfig) : Prop where
  variations : ∀ x ∈ c.variations.values, x.Storable
  targeting : ∀ rule ∈ c.targeting, rule.selection.Storable
  default_rule : c.defaultRule.Storable
  schedule : ∀ step ∈ c.schedule, step.Storable
  metadata : ∀ v ∈ c.metadata.values, v.WellFormed

namespace Json

variable {α : Type} {key other : String}

@[simp] theorem member?_optional (key other : String) (encode : α → Json) (a? : Option α) :
    member? key (optional other encode a?) = if key = other then a?.map encode else none := by
  cases a? with
  | none => exact (ite_self none).symm
  | some a => rfl

@[simp] theorem member?_switchMember (key other : String) (on : Bool) :
    member? key (switchMember other on) =
      if key = other then (if on then some true else none).map Json.bool else none := by
  cases on with
  | false => exact (ite_self none).symm
  | true => rfl

@[simp] theorem member?_unless (key : String) (off : Bool) (m : String × Json) :
    member? key (if off then [] else [m]) =
      if key = m.1 then (if off then none else some m.2) else none := by
  cases off with
  | false => rfl
  | true => exact (ite_self none).symm

@[simp] theorem member?_listMember (key other : String) (encode : α → Json) (items : List α) :
    member? key (listMember other encode items) =
      if key = other then
        (if items.isEmpty then none else some items).map (fun items => .array (items.map encode))
      else none := by
  cases items with
  | nil => exact (ite_self none).symm
  | cons => rfl

theorem sorted_entries (m : OrderedMap String Json) :
    (Json.object m.entries).sorted = .object (m.mapValues sorted).entries := by
  rw [sorted, sortedMembers_of_ascending m.ordered]
  rfl

end Json

namespace Decode

variable {α β : Type} {d : Decoder α} {ms : List (String × Json)} {key : String}

theorem reads_bool (b : Bool) : Reads bool (Json.bool b).sorted b := fun _ => rfl

theorem reads_string (s : String) : Reads string (Json.string s).sorted s := fun _ => rfl

theorem reads_double {value : Double} (hfinite : value.isFinite = true) :
    Reads double (Json.ofDouble value).sorted value := by
  intro r
  rw [Json.ofDouble, if_pos hfinite]
  rfl

theorem reads_list {encode : β → Json} {f : β → α} {items : List β}
    (hitems : ∀ b ∈ items, Reads d (encode b).sorted (f b)) :
    Reads (list d) (Json.array (items.map encode)).sorted (items.map f) := by
  rw [Json.sorted, Json.sortedItems_eq_map, List.map_map]
  exact Reads.list hitems

theorem reads_map {encode : α → Json} {m : OrderedMap String α}
    (hvalues : ∀ a ∈ m.values, Reads d (encode a).sorted a) :
    Reads (map d) (Json.object (m.mapValues encode).entries).sorted m := by
  have hentries : ((m.mapValues encode).mapValues Json.sorted).entries =
      (m.mapValues (fun a => (encode a).sorted)).entries :=
    List.map_map
  rw [Json.sorted_entries, hentries]
  exact Reads.map m hvalues

theorem reads_record {x : Record α} {a : α} (hx : x.Finds (Json.sortedMembers ms) a)
    (name : String) : Reads (record name x) (Json.object ms).sorted a := by
  rw [Json.sorted]
  exact Reads.record hx name

theorem finds_member {v : Json} {a : α} (hmember : Json.member? key ms = some v)
    (hd : Reads d v.sorted a) (absence : FieldSource → Option α) :
    (field key d absence).Finds (Json.sortedMembers ms) a := by
  refine finds_field (v := v.sorted) ?_ hd absence
  rw [Json.member?_sortedMembers, hmember]
  rfl

section Omissible

variable {absence : FieldSource → Option (Option α)}

theorem finds_some {v : Json} {a : α} (hmember : Json.member? key ms = some v)
    (hd : Reads d v.sorted a) (hnull : v.sorted ≠ .null) :
    (field key (option d) absence).Finds (Json.sortedMembers ms) (some a) := by
  refine finds_field_some ?_ hd hnull absence
  rw [Json.member?_sortedMembers, hmember]
  rfl

theorem finds_none (hmember : Json.member? key ms = none)
    (habsence : ∀ ms, absence (.members ms) = some none) :
    (field key (option d) absence).Finds (Json.sortedMembers ms) none := by
  refine finds_field_absent ?_ (habsence _)
  rw [Json.member?_sortedMembers, hmember]
  rfl

/-- A member that is told only if there is a value. -/
theorem finds_option {f : β → α} (encode : β → Json) (b? : Option β)
    (habsence : ∀ ms, absence (.members ms) = some none)
    (hmember : Json.member? key ms = b?.map encode)
    (hd : ∀ b, b? = some b → Reads d (encode b).sorted (f b) ∧ (encode b).sorted ≠ .null) :
    (field key (option d) absence).Finds (Json.sortedMembers ms) (b?.map f) := by
  cases b? with
  | none => exact finds_none hmember habsence
  | some b => exact finds_some hmember (hd b rfl).1 (hd b rfl).2

/-- A value that is told as itself, and only if there is one. -/
theorem finds_kept (encode : α → Json) (a? : Option α)
    (habsence : ∀ ms, absence (.members ms) = some none)
    (hmember : Json.member? key ms = a?.map encode)
    (hd : ∀ a, a? = some a → Reads d (encode a).sorted a ∧ (encode a).sorted ≠ .null) :
    (field key (option d) absence).Finds (Json.sortedMembers ms) a? := by
  have hfound := finds_option (f := id) encode a? habsence hmember hd
  rwa [Option.map_id] at hfound

end Omissible

/-- A member that is told only if the list has items. -/
theorem finds_list {encode : β → Json} {f : β → α} {items : List β}
    (hmember : Json.member? key ms =
      (if items.isEmpty then none else some items).map (fun items => .array (items.map encode)))
    (hitems : ∀ b ∈ items, Reads d (encode b).sorted (f b)) :
    (defaulted key (list d) []).Finds (Json.sortedMembers ms) (items.map f) := by
  cases items with
  | nil =>
      refine finds_field_absent ?_ rfl
      rw [Json.member?_sortedMembers, hmember]
      rfl
  | cons b rest => exact finds_member hmember (reads_list hitems) _

end Decode

theorem Variation.reads_toJson {x : Variation} (hx : x.Storable) :
    Reads Variation.decode x.toJson.sorted x := by
  obtain ⟨v, hv, rfl⟩ := hx
  intro r
  have hsame : (Variation.ofJson v).toJson = v := by cases v <;> rfl
  rw [hsame, Json.sorted_of_wellFormed hv]
  rfl

/-- The members of an end of a ramp. -/
def RampEnd.members (e : RampEnd) : List (String × Json) :=
  [("variation", .string e.variation)] ++ Json.optional "percentage" Json.ofDouble e.percentage ++
    [("date", e.date.toJson)]

theorem RampEnd.finds_percentage {e : RampEnd} (he : e.Storable)
    {absence : FieldSource → Option (Option Double)}
    (habsence : ∀ ms, absence (.members ms) = some none) :
    (field "percentage" (option double) absence).Finds (Json.sortedMembers e.members)
      e.percentage := by
  refine finds_kept Json.ofDouble e.percentage habsence (by simp [members]) (fun value hvalue => ?_)
  have hfinite := he value hvalue
  exact ⟨reads_double hfinite, by rw [Json.ofDouble, if_pos hfinite]; exact nofun⟩

theorem RampEnd.reads_toJson {e : RampEnd} (he : e.Storable) :
    Reads RampEndDraft.decode e.toJson.sorted e.draft := by
  refine reads_record ((((finds_member ?_ (reads_string e.variation) _).map _).seq
    (finds_percentage he (fun _ => rfl))).seq (finds_some ?_ (reads_string e.date.text) nofun)) _
  · simp [members]
  · simp [members, Instant.toJson]

theorem Ramp.reads_toJson {r : Ramp} (hr : r.Storable) :
    Reads RampDraft.decode r.toJson.sorted r.draft :=
  reads_record (((finds_some rfl (RampEnd.reads_toJson hr.initial) nofun).map _).seq
    (finds_some (by simp) (RampEnd.reads_toJson hr.final) nofun)) _

/-- The draft of a selection is found wherever its one member stands alone among
those of its kind. -/
theorem Selection.finds_fields {s : Selection} (hs : s.Storable) {ms : List (String × Json)}
    (hms : ∀ mode : Mode, Json.member? mode.name ms =
      if s.mode = mode then some s.toMember.2 else none) :
    SelectionDraft.fields.Finds (Json.sortedMembers ms) s.draft := by
  have hvariation := hms .variation
  have hpercentage := hms .percentage
  have hprogressive := hms .progressive
  cases s with
  | variation name =>
      exact (((finds_some hvariation (reads_string name) nofun).map _).seq
        (finds_none hpercentage (fun _ => rfl))).seq (finds_none hprogressive (fun _ => rfl))
  | percentage split =>
      have hweights := fun weight hmem => reads_double (hs weight hmem)
      exact (((finds_none hvariation (fun _ => rfl)).map _).seq
        (finds_some hpercentage (reads_map hweights) nofun)).seq
          (finds_none hprogressive (fun _ => rfl))
  | progressive ramp =>
      exact (((finds_none hvariation (fun _ => rfl)).map _).seq
        (finds_none hpercentage (fun _ => rfl))).seq
        (finds_some hprogressive (Ramp.reads_toJson hs) nofun)

theorem Selection.member?_toMember (s : Selection) (mode : Mode) :
    Json.member? mode.name [s.toMember] = if s.mode = mode then some s.toMember.2 else none := by
  cases s <;> cases mode <;> rfl

theorem Selection.reads_toJson {s : Selection} (hs : s.Storable) :
    Reads SelectionDraft.decode s.toJson.sorted s.draft :=
  reads_record (Selection.finds_fields hs s.member?_toMember) _

/-- The members of a rule, its selection among them. -/
def TargetingRule.members (r : TargetingRule) : List (String × Json) :=
  [("name", .string r.name), ("query", .string r.query), r.selection.toMember] ++
    switchMember "disable" r.disable

theorem Selection.fst_toMember (s : Selection) : s.toMember.1 = s.mode.name := by
  cases s <;> rfl

theorem TargetingRule.member?_mode (r : TargetingRule) (mode : Mode) :
    Json.member? mode.name r.members =
      if r.selection.mode = mode then some r.selection.toMember.2 else none := by
  have hother : mode.name ≠ "name" ∧ mode.name ≠ "query" ∧ mode.name ≠ "disable" := by
    cases mode <;> decide
  rw [← r.selection.member?_toMember mode]
  simp [members, hother]

theorem TargetingRule.member?_disable (r : TargetingRule) :
    Json.member? "disable" r.members = (if r.disable then some true else none).map Json.bool := by
  have hother : ∀ mode : Mode, "disable" ≠ mode.name := by
    intro mode
    cases mode <;> decide
  simp [members, Selection.fst_toMember, hother]

theorem TargetingRule.reads_toJson {r : TargetingRule} (hr : r.selection.Storable) :
    Reads RuleDraft.decode r.toJson.sorted r.draft := by
  have hname : Json.member? "name" r.members = some (.string r.name) := rfl
  have hquery : Json.member? "query" r.members = some (.string r.query) := rfl
  have hdisable : (nullable "disable" bool).Finds (Json.sortedMembers r.members)
      (if r.disable then some true else none) :=
    finds_kept Json.bool _ (fun _ => rfl) r.member?_disable (fun b _ => ⟨reads_bool b, nofun⟩)
  have hown := (((finds_member hname (reads_string r.name) (fun _ => some "")).map
    (fun name query (disable : Option Bool) => (name, query, disable))).seq
      (finds_member hquery (reads_string r.query) (fun _ => some ""))).seq hdisable
  have hselection := Selection.finds_fields hr r.member?_mode
  intro reading
  rw [RuleDraft.decode, TargetingRule.toJson, Json.sorted]
  have hpart := members_of_finds hselection .aside
  exact (bind_of_ok (Reads.spread hown hpart "RuleDocument" reading) _).trans rfl

theorem ScheduledStep.reads_toJson {s : ScheduledStep} (hs : s.Storable) :
    Reads StepDraft.decode s.toJson.sorted s.draft := by
  refine reads_record ((((finds_some ?_ (reads_string s.date.text) nofun).map _).seq
    (finds_option (fun rules => .array (rules.map TargetingRule.toJson)) s.targeting
      (fun _ => rfl) ?_
      (fun rules hrules => ?_))).seq
    (finds_some ?_ (Selection.reads_toJson hs.default_rule) nofun)) _
  · rfl
  · simp
  · exact ⟨reads_list (fun rule hmem => TargetingRule.reads_toJson (hs.targeting rules hrules rule hmem)),
      nofun⟩
  · simp

theorem Experiment.reads_toJson (e : Experiment) :
    Reads ExperimentDraft.decode e.toJson.sorted e.draft := by
  refine reads_record (((finds_option Instant.toJson e.start (fun _ => rfl) ?_
    (fun date _ => ⟨reads_string date.text, nofun⟩)).map _).seq
    (finds_option Instant.toJson e.finish (fun _ => rfl) ?_
      (fun date _ => ⟨reads_string date.text, nofun⟩))) _
  · simp
  · simp

namespace FlagConfig

/-- The members of a configuration. -/
def members (c : FlagConfig) : List (String × Json) :=
  [("variations", .object (c.variations.mapValues Variation.toJson).entries)] ++
    listMember "targeting" TargetingRule.toJson c.targeting ++
    [("defaultRule", c.defaultRule.toJson)] ++
    listMember "scheduledRollout" ScheduledStep.toJson c.schedule ++
    Json.optional "experimentation" Experiment.toJson c.experiment ++
    [("disable", .bool c.disable), ("trackEvents", .bool c.trackEvents)] ++
    Json.optional "version" Json.string c.version ++
    Json.optional "bucketingKey" Json.string c.bucketingKey ++
    (if c.metadata.isEmpty then [] else [("metadata", .object c.metadata.entries)])

theorem member?_metadata (c : FlagConfig) : Json.member? "metadata" c.members =
    if c.metadata.isEmpty then none else some (.object c.metadata.entries) := by
  simp [members]

theorem finds_metadata {c : FlagConfig} (hmetadata : ∀ v ∈ c.metadata.values, v.WellFormed) :
    (defaulted "metadata" (map json) ∅).Finds (Json.sortedMembers c.members) c.metadata := by
  have hmember := c.member?_metadata
  cases hempty : c.metadata.isEmpty with
  | true =>
      have hnone : c.metadata = ∅ := OrderedMap.ext (List.isEmpty_iff.1 hempty)
      refine finds_field_absent ?_ (congrArg some hnone.symm)
      rw [Json.member?_sortedMembers, hmember, hempty]
      rfl
  | false =>
      rw [hempty] at hmember
      refine finds_member hmember ?_ _
      rw [Json.sorted_entries]
      refine Reads.map c.metadata (fun v hmem r => ?_)
      rw [Json.sorted_of_wellFormed (hmetadata v hmem)]
      rfl

/-- A configuration that is stored is read as its draft. -/
theorem reads_toDocument {c : FlagConfig} (hc : c.Storable) :
    Reads ConfigDraft.decode c.toDocument c.draft := by
  refine reads_record ((((((((((Finds.map ?_ _).seq ?_).seq ?_).seq ?_).seq ?_).seq ?_).seq ?_).seq
    ?_).seq ?_).seq (finds_metadata hc.metadata)) _
  · exact finds_member (by simp [members])
      (reads_map (fun x hmem => Variation.reads_toJson (hc.variations x hmem))) _
  · exact finds_list (by simp [members])
      (fun rule hmem => TargetingRule.reads_toJson (hc.targeting rule hmem))
  · exact finds_some (by simp [members]) (Selection.reads_toJson hc.default_rule) nofun
  · exact finds_list (by simp [members])
      (fun step hmem => ScheduledStep.reads_toJson (hc.schedule step hmem))
  · exact finds_option Experiment.toJson c.experiment (fun _ => rfl) (by simp [members])
      (fun e _ => ⟨e.reads_toJson, nofun⟩)
  · exact finds_some (by simp [members]) (reads_bool c.disable) nofun
  · exact finds_some (by simp [members]) (reads_bool c.trackEvents) nofun
  · exact finds_kept Json.string c.version (fun _ => rfl) (by simp [members])
      (fun s _ => ⟨reads_string s, nofun⟩)
  · exact finds_kept Json.string c.bucketingKey (fun _ => rfl) (by simp [members])
      (fun s _ => ⟨reads_string s, nofun⟩)

end FlagConfig

end FlagGovernance
