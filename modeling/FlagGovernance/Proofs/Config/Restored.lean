import FlagGovernance.Proofs.Config.Readings
/-
Proposing what was stored.

The document of a configuration that has a JSON form validates just when the
configuration is valid and comes back from its draft.  For what came of a document
that validated, only the years of its dates can stand in the way.
-/

namespace FlagGovernance

theorem ConfigDraft.ofDocument_eq_ok_iff {doc : Json} {draft : ConfigDraft} :
    ConfigDraft.ofDocument doc = .ok draft ↔ ConfigDraft.decode .direct doc = .ok draft :=
  mapError_eq_ok_iff

/-- What a document must go through to validate. -/
theorem validateDocument_eq_ok_iff {doc : Json} {c : FlagConfig} :
    validateDocument doc = .ok c ↔ ∃ draft, ConfigDraft.decode .direct doc = .ok draft ∧
      ¬ draft.variations.isEmpty ∧ Lift.config draft = .ok c ∧ c.validate = .ok () := by
  rw [validateDocument, bind_eq_ok_iff]
  simp only [ConfigDraft.ofDocument_eq_ok_iff, ite_throw_eq_ok_iff, bind_eq_ok_iff]
  constructor
  · rintro ⟨draft, hdraft, hvaried, lifted, hlift, _, hvalid, hsame⟩
    obtain rfl := Except.ok.inj hsame
    exact ⟨draft, hdraft, hvaried, hlift, hvalid⟩
  · rintro ⟨draft, hdraft, hvaried, hlift, hvalid⟩
    exact ⟨draft, hdraft, hvaried, c, hlift, (), hvalid, rfl⟩

/-- The configuration of a document has nothing that its stored form could not say. -/
theorem settled_of_validateDocument {doc : Json} {c : FlagConfig} (hdoc : doc.WellFormed)
    (hconfig : validateDocument doc = .ok c) : c.Settled := by
  obtain ⟨draft, hdraft, _, hlift, _⟩ := validateDocument_eq_ok_iff.1 hconfig
  exact Lift.config_settled hlift (ConfigDraft.ensures_decode _ _ _ hdoc hdraft)

namespace Sample

def rampedDocument : Json :=
  .object [
    ("defaultRule", .object [("progressiveRollout", .object [
      ("end", .object [("date", .string "2017-02-01T02:00:00+02:00"), ("variation", .string "on")]),
      ("initial", .object [("date", .string "2016-12-31T23:59:60.25Z"),
        ("percentage", .number (.integer 5)), ("variation", .string "off")])])]),
    ("experimentation", .object [("start", .string "2016-12-01T00:00:00Z")]),
    ("metadata", .object [("owner", .null)]),
    ("scheduledRollout", .array [.object [("date", .string "2018-01-01T00:00:00Z"),
      ("defaultRule", .object [("percentage", .object [("off", .number (.integer 30)),
        ("on", .number (.integer 70))])]), ("targeting", .array [])]]),
    ("targeting", .array [.object [("disable", .bool true), ("name", .string "admins"),
      ("query", .string "role eq \"admin\""), ("variation", .string "on")]]),
    ("variations", .object [("off", .bool false), ("on", .array [.string "beta"])]),
    ("version", .string "")]

def typedDocument : Json :=
  .object [("bucketingKey", .string ""), ("defaultRule", .object [("variation", .string "on")]),
    ("experimentation", .object [("end", .string "2016-12-31 23:59:60 UTC")]),
    ("variations", .object [("on", .bool true)])]

def typedConfig : FlagConfig :=
  { FlagConfig.plain (.ofList [("on", .bool true)]) (.variation "on") with
    experiment := some ⟨none, some ⟨⟨2016, 12, 31, by decide⟩, 86399, 1000000000, by decide⟩⟩
    bucketingKey := some "" }

def farConfig : FlagConfig :=
  { FlagConfig.plain (.ofList [("on", .bool true)]) (.variation "on") with
    experiment := some ⟨none, some ⟨⟨10000, 1, 1, by decide⟩, 1, 0, by decide⟩⟩ }

def emptySplitDocument : Json :=
  .object [("defaultRule", .object [("percentage", .object [])]),
    ("variations", .object [("on", .bool true)])]

def farDocument : Json :=
  .object [("defaultRule", .object [("variation", .string "on")]),
    ("experimentation", .object [("end", .string "+10000-01-01T00:00:01Z")]),
    ("variations", .object [("on", .bool true)])]

end Sample

namespace FlagConfig

theorem varied_of_validate {c : FlagConfig} (hvalid : c.validate = .ok ()) :
    ¬ c.variations.isEmpty := by
  intro hempty
  cases hviolations : c.violations with
  | nil =>
      rw [violations, variationViolations, if_pos hempty] at hviolations
      contradiction
  | cons first rest =>
      rw [validate, hviolations] at hvalid
      contradiction

/-- A stored configuration validates as a document just when it validates and comes
back from its draft. -/
theorem answersIf_validateDocument {c : FlagConfig} (hc : c.Storable) :
    AnswersIf (validateDocument c.toDocument) (c.Liftable ∧ c.validate = .ok ()) c.tidied := by
  intro restored
  rw [validateDocument_eq_ok_iff]
  constructor
  · rintro ⟨draft, hdraft, _, hlift, hvalid⟩
    obtain rfl := Except.ok.inj ((reads_toDocument hc .direct).symm.trans hdraft)
    obtain ⟨hliftable, rfl⟩ := (Lift.answersIf_config c restored).1 hlift
    exact ⟨⟨hliftable, hvalid⟩, rfl⟩
  · rintro ⟨⟨hliftable, hvalid⟩, rfl⟩
    exact ⟨c.draft, reads_toDocument hc .direct, varied_of_validate hvalid,
      (Lift.answersIf_config c c.tidied).2 ⟨hliftable, rfl⟩, hvalid⟩

/-- What came of a document that validated comes back from its stored form just when
its dates have plain years. -/
theorem answersIf_validateDocument_of_document {doc : Json} {c : FlagConfig}
    (hdoc : doc.WellFormed) (hconfig : validateDocument doc = .ok c) :
    AnswersIf (validateDocument c.toDocument) (∀ date ∈ c.dates, date.HasPlainYear) c := by
  have hsettled := settled_of_validateDocument hdoc hconfig
  obtain ⟨_, _, _, _, hvalid⟩ := validateDocument_eq_ok_iff.1 hconfig
  have hanswers := answersIf_validateDocument hsettled.storable
  rw [hsettled.tidy] at hanswers
  refine hanswers.of_iff ⟨fun hdates => ⟨⟨hdates, hsettled.chosen⟩, hvalid⟩, fun h => h.1.1⟩

/-- Storing and reading again changes nothing: a document that validates, with plain
years, gives a configuration whose stored form validates as the same configuration,
which has the same stored form again. -/
theorem validateDocument_toDocument {doc : Json} {c : FlagConfig} (hdoc : doc.WellFormed)
    (hconfig : validateDocument doc = .ok c) (hdates : ∀ date ∈ c.dates, date.HasPlainYear) :
    validateDocument c.toDocument = .ok c ∧
      (validateDocument c.toDocument).map FlagConfig.toDocument = .ok c.toDocument := by
  have hrestored := (answersIf_validateDocument_of_document hdoc hconfig c).2 ⟨hdates, rfl⟩
  exact ⟨hrestored, congrArg (Except.map FlagConfig.toDocument) hrestored⟩

/-- A ramp that starts in a leap second, a step without rules, an experiment without
an end, and a version that is set and empty. -/
theorem ramped_document_restored :
    ∃ c, validateDocument Sample.rampedDocument = .ok c ∧
      c.dates.map Instant.text = ["2016-12-31T23:59:60.250Z", "2017-02-01T00:00:00Z",
        "2018-01-01T00:00:00Z", "2016-12-01T00:00:00Z"] ∧
      validateDocument c.toDocument = .ok c := by
  have hread : (validateDocument Sample.rampedDocument).toOption.map
      (fun c => (c.dates.map Instant.text, decide (∀ date ∈ c.dates, date.HasPlainYear))) =
      some (["2016-12-31T23:59:60.250Z", "2017-02-01T00:00:00Z", "2018-01-01T00:00:00Z",
        "2016-12-01T00:00:00Z"], true) := by decide +kernel
  cases hconfig : validateDocument Sample.rampedDocument with
  | error => rw [hconfig] at hread; contradiction
  | ok c =>
      rw [hconfig] at hread
      obtain ⟨htexts, hplain⟩ := Prod.mk.inj (Option.some.inj hread)
      refine ⟨c, rfl, htexts, ?_⟩
      exact (validateDocument_toDocument (by decide +kernel) hconfig (of_decide_eq_true hplain)).1

/-- A typed configuration with plain years that validates does so in its stored form
just when none of its selections is an empty name or an empty split, which a draft
counts as unset.  It comes back as it was but for texts that are set and empty. -/
theorem answersIf_validateDocument_of_typed {v : Json} {reading : Reading} {c : FlagConfig}
    (hv : v.WellFormed) (hread : FlagConfig.decode reading v = .ok c) (hvalid : c.validate = .ok ())
    (hdates : ∀ date ∈ c.dates, date.HasPlainYear) :
    AnswersIf (validateDocument c.toDocument)
      (∀ selection ∈ c.selections, ¬ selection.IsBlank) c.tidied := by
  have hstorable := ensures_decode reading v c hv hread
  refine (answersIf_validateDocument hstorable).of_iff ?_
  exact ⟨fun hchosen => ⟨⟨hdates, hchosen⟩, hvalid⟩, fun h => h.1.2⟩

/-- The looser form of a date, and a key that is set and empty. -/
theorem typed_document_restored :
    FlagConfig.decode .direct Sample.typedDocument = .ok Sample.typedConfig ∧
      validateDocument Sample.typedConfig.toDocument =
        .ok { Sample.typedConfig with bucketingKey := none } := by
  have hread : FlagConfig.decode .direct Sample.typedDocument = .ok Sample.typedConfig := rfl
  have hanswers := answersIf_validateDocument_of_typed (by decide +kernel) hread rfl (by decide)
  exact ⟨hread, (hanswers _).2 ⟨by decide, rfl⟩⟩

/-- Typed configurations that validate can be refused in their stored form: for an
empty split, and for a year of five digits. -/
theorem typed_not_restored :
    (∃ c, FlagConfig.decode .direct Sample.emptySplitDocument = .ok c ∧ c.validate = .ok () ∧
      validateDocument c.toDocument = .error ⟨"defaultRule", .missingMode⟩) ∧
    ∃ c, FlagConfig.decode .direct Sample.farDocument = .ok c ∧ c.validate = .ok () ∧
      validateDocument c.toDocument =
        .error ⟨"experimentation.end", .invalidDate "+10000-01-01T00:00:01Z"⟩ := by
  refine ⟨⟨.plain (.ofList [("on", .bool true)]) (.percentage ∅), rfl, rfl, rfl⟩, ?_⟩
  exact ⟨Sample.farConfig, rfl, rfl, eq_error_of_fault? (by decide +kernel)⟩

end FlagConfig

end FlagGovernance
