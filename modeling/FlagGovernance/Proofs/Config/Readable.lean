import FlagGovernance.Proofs.Config.Restored
import FlagGovernance.Proofs.Decode.Shapes
/-
Which documents can be read as drafts.

The shape of a draft lists the fields of every part of it.  Documents of other shapes are
refused before anything is asked of them, even for a variation.
-/

namespace FlagGovernance

open Decode Record

/-! ### The shapes of drafts -/

namespace RampEndDraft

def shape : Shape :=
  .record [.defaulted "variation" .text, .nullable "percentage" .number, .nullable "date" .text]

theorem decode_follows : Follows decode shape :=
  .record ((((follows_defaulted follows_string _ _).map _).seq
    (follows_nullable follows_double _)).seq (follows_nullable follows_string _)) (by decide) _

end RampEndDraft

namespace RampDraft

def shape : Shape :=
  .record [.nullable "initial" RampEndDraft.shape, .nullable "end" RampEndDraft.shape]

theorem decode_follows : Follows decode shape :=
  .record (((follows_nullable RampEndDraft.decode_follows _).map _).seq
    (follows_nullable RampEndDraft.decode_follows _)) (by decide) _

end RampDraft

namespace SelectionDraft

def fieldShapes : List FieldShape :=
  [.nullable "variation" .text, .nullable "percentage" (.map .number),
    .nullable "progressiveRollout" RampDraft.shape]

theorem fields_follows : fields.Follows fieldShapes :=
  (((follows_nullable follows_string _).map _).seq (follows_nullable follows_double.map _)).seq
    (follows_nullable RampDraft.decode_follows _)

theorem decode_follows : Follows decode (.record fieldShapes) :=
  .record fields_follows (by decide) _

end SelectionDraft

namespace RuleDraft

/-- The members of a rule, those of its selection among them. -/
def shape : Shape :=
  .object ([.defaulted "name" .text, .defaulted "query" .text, .nullable "disable" .switch] ++
    SelectionDraft.fieldShapes)

theorem decode_follows : Follows decode shape := by
  have hown := (((follows_defaulted follows_string "name" "").map
    (fun name query (disable : Option Bool) => (name, query, disable))).seq
      (follows_defaulted follows_string "query" "")).seq (follows_nullable follows_bool "disable")
  exact (Follows.spread hown SelectionDraft.fields_follows (by decide) _ .aside).mapped _

end RuleDraft

namespace StepDraft

def shape : Shape :=
  .record [.nullable "date" .text, .nullable "targeting" RuleDraft.shape.list,
    .nullable "defaultRule" (.record SelectionDraft.fieldShapes)]

theorem decode_follows : Follows decode shape :=
  .record ((((follows_nullable follows_string _).map _).seq
    (follows_nullable RuleDraft.decode_follows.list _)).seq
      (follows_nullable SelectionDraft.decode_follows _)) (by decide) _

end StepDraft

namespace ExperimentDraft

def shape : Shape := .record [.nullable "start" .text, .nullable "end" .text]

theorem decode_follows : Follows decode shape :=
  .record (((follows_nullable follows_string _).map _).seq
    (follows_nullable follows_string _)) (by decide) _

end ExperimentDraft

theorem Variation.decode_follows : Follows Variation.decode .any := follows_any (fun _ _ => rfl)

theorem Decode.follows_json : Follows json .any := follows_any (fun _ _ => rfl)

namespace ConfigDraft

def shape : Shape :=
  .record [.defaulted "variations" (.map .any), .defaulted "targeting" RuleDraft.shape.list,
    .nullable "defaultRule" (.record SelectionDraft.fieldShapes),
    .defaulted "scheduledRollout" StepDraft.shape.list,
    .nullable "experimentation" ExperimentDraft.shape, .nullable "disable" .switch,
    .nullable "trackEvents" .switch, .nullable "version" .text, .nullable "bucketingKey" .text,
    .defaulted "metadata" (.map .any)]

/-- The documents that are read as drafts are those of the shape, and what the shape does not
know of a document has no part in the reading. -/
theorem decode_follows : Follows decode shape :=
  .record (((((((((((follows_defaulted Variation.decode_follows.map _ _).map _).seq
    (follows_defaulted RuleDraft.decode_follows.list _ _)).seq
    (follows_nullable SelectionDraft.decode_follows _)).seq
    (follows_defaulted StepDraft.decode_follows.list _ _)).seq
    (follows_nullable ExperimentDraft.decode_follows _)).seq
    (follows_nullable follows_bool _)).seq (follows_nullable follows_bool _)).seq
    (follows_nullable follows_string _)).seq (follows_nullable follows_string _)).seq
    (follows_defaulted follows_json.map _ _)) (by decide) _

end ConfigDraft

/-! ### What is read of each field -/

/-- The value of a field that an object may have: what it has there, or else the value of a
field that is absent. -/
inductive Decode.Told {α : Type} (d : Decoder α) (r : Reading) (absent : α) : Option Json → α → Prop
  | absent : Told d r absent none absent
  | found {v : Json} {a : α} (hread : d r v = .ok a) : Told d r absent (some v) a

namespace Record

variable {α β : Type} {r : Reading} {s : FieldSource} {place : Nat}

theorem read_map_eq_ok_iff {x : Record α} {f : α → β} {b : β} :
    (f <$> x).read r s place = .ok b ↔ ∃ a, x.read r s place = .ok a ∧ f a = b :=
  map_eq_ok_iff

theorem read_seq_eq_ok_iff {f : Record (α → β)} {x : Record α} {b : β} :
    (f <*> x).read r s place = .ok b ↔
      ∃ g, f.read r s place = .ok g ∧ ∃ a, x.read r s (place + f.arity) = .ok a ∧ g a = b := by
  rw [read_seq]
  cases f.read r s place with
  | error =>
      refine iff_of_false ?_ (fun ⟨_, hg, _⟩ => nomatch hg)
      cases x.read r s (place + f.arity) <;> exact nofun
  | ok g =>
      cases x.read r s (place + f.arity) with
      | error => exact iff_of_false nofun (fun ⟨_, _, _, ha, _⟩ => nomatch ha)
      | ok a =>
          constructor
          · exact fun h => ⟨g, rfl, a, rfl, Except.ok.inj h⟩
          · rintro ⟨_, hg, _, ha, rfl⟩
            rw [Except.ok.inj hg, Except.ok.inj ha]

theorem told_of_read_defaulted {key : String} {d : Decoder α} {absent a : α}
    {ms : List (String × Json)}
    (hread : (defaulted key d absent).read r (.members ms) place = .ok a) :
    Told d r absent (Json.member? key ms) a := by
  simp only [defaulted, field, FieldSource.get?] at hread
  cases hmember : Json.member? key ms with
  | none =>
      rw [hmember] at hread
      exact Except.ok.inj hread ▸ .absent
  | some v =>
      rw [hmember] at hread
      exact .found (mapError_eq_ok_iff.1 hread)

end Record

/-- What the members of a draft are read as. -/
structure ConfigDraft.ReadFrom (r : Reading) (ms : List (String × Json)) (d : ConfigDraft) :
    Prop where
  variations : Told (map Variation.decode) r ∅ (Json.member? "variations" ms) d.variations
  targeting : Told (list RuleDraft.decode) r [] (Json.member? "targeting" ms) d.targeting
  metadata : Told (map json) r ∅ (Json.member? "metadata" ms) d.metadata

theorem ConfigDraft.readFrom_of_decode {r : Reading} {ms : List (String × Json)} {d : ConfigDraft}
    (hread : ConfigDraft.decode r (.object ms) = .ok d) : d.ReadFrom r ms := by
  have hfields := mapError_eq_ok_iff.1 hread
  simp only [read_seq_eq_ok_iff, read_map_eq_ok_iff] at hfields
  obtain ⟨_, ⟨_, ⟨_, ⟨_, ⟨_, ⟨_, ⟨_, ⟨_, ⟨_, ⟨variations, hvariations, rfl⟩,
    targeting, htargeting, rfl⟩, _, _, rfl⟩, _, _, rfl⟩, _, _, rfl⟩, _, _, rfl⟩, _, _, rfl⟩,
    _, _, rfl⟩, _, _, rfl⟩, metadata, hmetadata, rfl⟩ := hfields
  exact ⟨told_of_read_defaulted hvariations, told_of_read_defaulted htargeting,
    told_of_read_defaulted hmetadata⟩

/-- The texts of a rule are those that its document has, or else empty. -/
theorem RuleDraft.told_of_decode {r : Reading} {v : Json} {d : RuleDraft}
    (hread : RuleDraft.decode r v = .ok d) :
    Told string r "" (v.get? "name") d.name ∧ Told string r "" (v.get? "query") d.query := by
  cases v with
  | null | bool | number | string | array => contradiction
  | object ms =>
      obtain ⟨⟨own, selection⟩, hown, hsame⟩ := bind_eq_ok_iff.1 hread
      obtain rfl := Except.ok.inj hsame
      obtain ⟨_, hfields, hrest⟩ := bind_eq_ok_iff.1 hown
      obtain ⟨_, _, hboth⟩ := bind_eq_ok_iff.1 hrest
      obtain ⟨rfl, _⟩ := Prod.mk.inj (Except.ok.inj hboth)
      have hread := mapError_eq_ok_iff.1 hfields
      simp only [read_seq_eq_ok_iff, read_map_eq_ok_iff] at hread
      obtain ⟨_, ⟨_, ⟨name, hname, rfl⟩, query, hquery, rfl⟩, _, _, rfl⟩ := hread
      exact ⟨told_of_read_defaulted hname, told_of_read_defaulted hquery⟩

/-! ### Documents without a variation -/

/-- The object has no variation. -/
def Unvaried (ms : List (String × Json)) : Prop :=
  ∀ v, Json.member? "variations" ms = some v → v = .object []

theorem ConfigDraft.ReadFrom.variations_of_unvaried {r : Reading} {ms : List (String × Json)}
    {d : ConfigDraft} (hread : d.ReadFrom r ms) (hunvaried : Unvaried ms) : d.variations = ∅ := by
  have htold := hread.variations
  generalize d.variations = variations at htold
  cases hmember : Json.member? "variations" ms with
  | none =>
      rw [hmember] at htold
      cases htold with
      | absent => rfl
  | some v =>
      obtain rfl := hunvaried v hmember
      rw [hmember] at htold
      cases htold with
      | found hread => exact (Except.ok.inj hread).symm

theorem validateDocument_of_misread {doc : Json} {cause : DecodeError}
    (hread : ConfigDraft.decode .direct doc = .error cause) :
    validateDocument doc = .error ⟨"$", .malformedDocument cause⟩ := by
  rw [validateDocument, ConfigDraft.ofDocument, hread]
  rfl

theorem validateDocument_of_no_variations {doc : Json} {d : ConfigDraft}
    (hread : ConfigDraft.decode .direct doc = .ok d) (hnone : d.variations = ∅) :
    validateDocument doc = .error ⟨"variations", .noVariations⟩ := by
  rw [validateDocument, bind_of_ok (ConfigDraft.ofDocument_eq_ok_iff.2 hread), hnone]
  rfl

namespace Sample

def namedTargetsDocument : List (String × Json) :=
  [("targeting", .string "admins"), ("variations", .object [])]

def unvariedDocument : List (String × Json) :=
  [("defaultRule", .object [("percentage", .object [("a", .number (.integer 1))]),
      ("variation", .string "a")]),
    ("scheduledRollout", .array [.object [("date", .string "bad")]])]

end Sample

/-- That an object has no variation is told just if it has the shape of a draft.  Of any other
object it is told that it has not. -/
theorem validateDocument_of_unvaried {ms : List (String × Json)} (hunvaried : Unvaried ms) :
    (validateDocument (.object ms) = .error ⟨"variations", .noVariations⟩ ↔
      ConfigDraft.shape.Fits (.object ms)) ∧
    (¬ ConfigDraft.shape.Fits (.object ms) →
      ∃ cause, validateDocument (.object ms) = .error ⟨"$", .malformedDocument cause⟩) := by
  have hfits := ConfigDraft.decode_follows.answers .direct (.object ms)
  cases hread : ConfigDraft.decode .direct (.object ms) with
  | error cause =>
      have hrefused := validateDocument_of_misread hread
      have hmisfit : ¬ ConfigDraft.shape.Fits (.object ms) := by
        rw [← hfits, hread]
        simp
      refine ⟨iff_of_false (fun hsame => ?_) hmisfit, fun _ => ⟨cause, hrefused⟩⟩
      have hfault := congrArg Violation.fault (Except.error.inj (hrefused.symm.trans hsame))
      contradiction
  | ok d =>
      have hnone := (ConfigDraft.readFrom_of_decode hread).variations_of_unvaried hunvaried
      have hfit := hfits.1 ⟨d, hread⟩
      exact ⟨iff_of_true (validateDocument_of_no_variations hread hnone) hfit,
        fun hmisfit => absurd hfit hmisfit⟩

/-- Two modes and a date that is none, and still the variations are told first. -/
theorem unvaried_document_told :
    Unvaried Sample.unvariedDocument ∧
      ConfigDraft.shape.Fits (.object Sample.unvariedDocument) ∧
      validateDocument (.object Sample.unvariedDocument) =
        .error ⟨"variations", .noVariations⟩ := by
  have hnone : Json.member? "variations" Sample.unvariedDocument = none := rfl
  have hunvaried : Unvaried Sample.unvariedDocument := fun v hv => nomatch hnone.symm.trans hv
  have hfits : ConfigDraft.shape.Fits (.object Sample.unvariedDocument) :=
    (ConfigDraft.decode_follows.answers .direct _).1 (exists_ok_of_fault? (by decide +kernel))
  exact ⟨hunvaried, hfits, (validateDocument_of_unvaried hunvaried).1.2 hfits⟩

/-- An object without a variation that is told to be malformed. -/
theorem unvaried_document_malformed :
    Unvaried Sample.namedTargetsDocument ∧
      validateDocument (.object Sample.namedTargetsDocument) = .error ⟨"$",
        .malformedDocument (.invalidType (.string "admins") "a sequence")⟩ := by
  refine ⟨fun v hv => (Option.some.inj hv).symm, rfl⟩

end FlagGovernance
