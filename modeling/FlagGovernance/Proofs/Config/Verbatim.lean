import FlagGovernance.Proofs.Config.Definite
import FlagGovernance.Proofs.Config.Readable
import FlagGovernance.Proofs.Config.WellFormed
/-
What is stored as it was proposed.

Variations and metadata come back from the stored form as the documents that they were, and
rules with the names and queries that they had.  Members that no part of a configuration knows
have no part in any of it.
-/

namespace FlagGovernance

open Decode Record

/-- The names and queries of the rules of a list, in order. -/
def Json.ruleTexts : Option Json → List (Option Json × Option Json)
  | some (.array rules) => rules.map (fun rule => (rule.get? "name", rule.get? "query"))
  | _ => []

/-- The member, unless it is an object without members. -/
def Json.unlessEmpty : Option Json → Option Json
  | some (.object []) => none
  | v? => v?

theorem Variation.toJson_ofJson (v : Json) : (Variation.ofJson v).toJson = v := by
  cases v <;> rfl

namespace Decode

variable {α : Type} {d : Decoder α} {r : Reading}

/-- A map whose values are read without fail holds them all, under the keys that they had. -/
theorem exists_of_map {f : Json → α} (hd : ∀ r v, d r v = .ok (f v)) {v : Json} (hv : v.WellFormed)
    {m : OrderedMap String α} (hread : map d r v = .ok m) :
    ∃ stored : OrderedMap String Json, v = .object stored.entries ∧ m = stored.mapValues f := by
  cases hv with
  | null | bool | number | string | array => contradiction
  | @object members hordered _ =>
      refine ⟨⟨members, hordered⟩, rfl, ?_⟩
      have hentries : ∀ m ∈ members,
          (d r m.2).map ((m.1, ·)) = .ok ((fun m => (m.1, f m.2)) m) := by
        intro m _
        rw [hd r m.2]
        rfl
      rw [map, mapM_eq_map hentries] at hread
      exact (Except.ok.inj hread).symm.trans
        (OrderedMap.ofList_entries ((⟨members, hordered⟩ : OrderedMap String Json).mapValues f))

theorem forall₂_of_mapM {ε β : Type} {g : β → Except ε α} {items : List β} {as : List α}
    (hmapM : items.mapM g = .ok as) : List.Forall₂ (fun b a => g b = .ok a) items as := by
  induction items generalizing as with
  | nil =>
      obtain rfl : [] = as := Except.ok.inj hmapM
      exact .nil
  | cons b rest ih =>
      rw [List.mapM_cons] at hmapM
      obtain ⟨a, ha, hrest⟩ := bind_eq_ok_iff.1 hmapM
      obtain ⟨more, hmore, hsame⟩ := bind_eq_ok_iff.1 hrest
      obtain rfl : a :: more = as := Except.ok.inj hsame
      exact .cons ha (ih hmore)

end Decode

namespace FlagConfig

theorem wellFormed_of_validate {c : FlagConfig} (hvalid : c.validate = .ok ()) : c.WellFormed := by
  rw [← violations_eq_nil_iff]
  rw [validate] at hvalid
  cases hviolations : c.violations with
  | nil => rfl
  | cons first rest =>
      rw [hviolations] at hvalid
      contradiction

theorem get?_toDocument (c : FlagConfig) (key : String) :
    c.toDocument.get? key = (Json.member? key c.members).map Json.sorted :=
  Json.member?_sortedMembers key c.members

/-- Variations are stored as the document that they were read from. -/
theorem variations_toDocument {c : FlagConfig} {r : Reading} {v? : Option Json}
    (hv : ∀ v, v? = some v → v.WellFormed)
    (htold : Told (map Variation.decode) r ∅ v? c.variations) (hvaried : c.variations.keys ≠ []) :
    c.toDocument.get? "variations" = v? := by
  generalize hvariations : c.variations = variations at htold hvaried
  cases htold with
  | absent => exact absurd rfl hvaried
  | found hread =>
      have hwell := hv _ rfl
      obtain ⟨stored, rfl, rfl⟩ := exists_of_map (fun _ _ => rfl) hwell hread
      have hmember : Json.member? "variations" c.members = some (.object stored.entries) := by
        simp [members, hvariations, OrderedMap.mapValues, Function.comp_def,
          Variation.toJson_ofJson]
      rw [get?_toDocument, hmember, Option.map_some, Json.sorted_of_wellFormed hwell]

/-- Metadata is stored as the document that it was read from, and left out if it is empty. -/
theorem metadata_toDocument {c : FlagConfig} {r : Reading} {v? : Option Json}
    (hv : ∀ v, v? = some v → v.WellFormed) (htold : Told (map json) r ∅ v? c.metadata) :
    c.toDocument.get? "metadata" = Json.unlessEmpty v? := by
  rw [get?_toDocument, member?_metadata]
  generalize c.metadata = metadata at htold
  cases htold with
  | absent => rfl
  | found hread =>
      have hwell := hv _ rfl
      obtain ⟨stored, rfl, rfl⟩ := exists_of_map (f := id) (fun _ _ => rfl) hwell hread
      have hsame : stored.mapValues id = stored := OrderedMap.ext (List.map_id _)
      rw [hsame, OrderedMap.isEmpty]
      cases hentries : stored.entries with
      | nil => rfl
      | cons =>
          rw [hentries] at hwell
          exact congrArg some (Json.sorted_of_wellFormed hwell)

theorem ruleTexts_toDocument (c : FlagConfig) :
    Json.ruleTexts (c.toDocument.get? "targeting") =
      c.targeting.map (fun rule => (some (.string rule.name), some (.string rule.query))) := by
  have hmember : Json.member? "targeting" c.members =
      (if c.targeting.isEmpty then none else some c.targeting).map
        (fun items => .array (items.map TargetingRule.toJson)) := by
    simp [members]
  have htexts : ∀ rule : TargetingRule, (rule.toJson.sorted.get? "name",
      rule.toJson.sorted.get? "query") = (some (.string rule.name), some (.string rule.query)) := by
    intro rule
    rw [TargetingRule.toJson, Json.sorted, Json.get?, Json.get?, Json.member?_sortedMembers,
      Json.member?_sortedMembers]
    rfl
  rw [get?_toDocument, hmember]
  cases hrules : c.targeting with
  | nil => rfl
  | cons rule rest =>
      change Json.ruleTexts (some (Json.array _).sorted) = _
      rw [Json.sorted, Json.sortedItems_eq_map, Json.ruleTexts, List.map_map, List.map_map]
      exact List.map_congr_left (fun rule _ => htexts rule)

end FlagConfig

theorem Decode.Told.string_eq {r : Reading} {v? : Option Json} {text : String}
    (htold : Told string r "" v? text) (hset : text ≠ "") : v? = some (.string text) := by
  cases htold with
  | absent => contradiction
  | @found v _ hread =>
      cases v with
      | string => rw [Except.ok.inj hread]
      | null | bool | number | array | object => contradiction

/-- A rule whose name and query are in order has the texts of its document. -/
theorem texts_of_spells {variations : Variations} {r : Reading} {v : Json} {d : RuleDraft}
    {rule : TargetingRule} (hread : RuleDraft.decode r v = .ok d) (hspells : d.Spells rule)
    (hrule : rule.WellFormed variations) :
    (v.get? "name", v.get? "query") = (some (.string rule.name), some (.string rule.query)) := by
  obtain ⟨hname, htext⟩ := RuleDraft.told_of_decode hread
  rw [← hspells.name] at hname
  rw [← hspells.query] at htext
  have hset : rule.name ≠ "" := by
    intro hempty
    have hnamed := hrule.named
    rw [TargetingRule.trimmedName, hempty] at hnamed
    exact hnamed rfl
  have hasked : rule.query ≠ "" := by
    intro hempty
    obtain ⟨expr, hparse⟩ := hrule.query
    have hrefused : Query.parse "" = .error ⟨1, 1, .blank⟩ := rfl
    rw [hempty, hrefused] at hparse
    contradiction
  rw [hname.string_eq hset, htext.string_eq hasked]

theorem ruleTexts_of_spells {variations : Variations} {r : Reading} {items : List Json}
    {drafts : List RuleDraft} {rules : List TargetingRule}
    (hread : List.Forall₂ (fun v d => RuleDraft.decode r v = .ok d) items drafts)
    (hspells : List.Forall₂ RuleDraft.Spells drafts rules)
    (hrules : ∀ rule ∈ rules, rule.WellFormed variations) :
    items.map (fun v => (v.get? "name", v.get? "query")) =
      rules.map (fun rule => (some (.string rule.name), some (.string rule.query))) := by
  induction hread generalizing rules with
  | nil =>
      cases hspells with
      | nil => rfl
  | cons hfirst _ ih =>
      cases hspells with
      | cons hspells hrest =>
          rw [List.forall_mem_cons] at hrules
          rw [List.map_cons, List.map_cons, ih hrest hrules.2,
            texts_of_spells hfirst hspells hrules.1]

theorem ruleTexts_of_told {variations : Variations} {r : Reading} {v? : Option Json}
    {drafts : List RuleDraft} {rules : List TargetingRule}
    (htold : Told (list RuleDraft.decode) r [] v? drafts)
    (hspells : List.Forall₂ RuleDraft.Spells drafts rules)
    (hrules : ∀ rule ∈ rules, rule.WellFormed variations) : Json.ruleTexts v? =
      rules.map (fun rule => (some (.string rule.name), some (.string rule.query))) := by
  cases htold with
  | absent =>
      cases hspells with
      | nil => rfl
  | @found v _ hread =>
      cases v with
      | null | bool | number | string | object => contradiction
      | array items => exact ruleTexts_of_spells (forall₂_of_mapM hread) hspells hrules

/-- Documents that a draft knows the same of are answered alike. -/
theorem validateDocument_of_known {doc doc' : Json}
    (hknown : ConfigDraft.shape.known doc' = ConfigDraft.shape.known doc) :
    validateDocument doc' = validateDocument doc := by
  have hread : ConfigDraft.ofDocument doc' = ConfigDraft.ofDocument doc := by
    rw [ConfigDraft.ofDocument, ConfigDraft.ofDocument,
      ← ConfigDraft.decode_follows.overlooks .direct doc', hknown,
      ConfigDraft.decode_follows.overlooks]
  rw [validateDocument, validateDocument, hread]

namespace Sample

def mixedValues : Json :=
  .object [("deep", .array [.null, .object [("a", .array [.object []]), ("b", .bool true)]]),
    ("large", .number (.integer 18446744073709551615)),
    ("least", .number (.integer (-9223372036854775808))),
    ("off", .null), ("part", .number (.real ⟨0x3FB999999999999A⟩)),
    ("whole", .number (.real ⟨0x4014000000000000⟩))]

def plainDocument : List (String × Json) :=
  [("defaultRule", .object [("variation", .string "off")]),
    ("metadata", .object [("owner", .null)]),
    ("targeting", .array [.object [("name", .string " admins "),
      ("query", .string "role  eq \"admin\""), ("variation", .string "large")]]),
    ("variations", mixedValues)]

/-- The same with notes beside the members that are known. -/
def notedDocument : List (String × Json) :=
  [("defaultRule", .object [("note", .array []), ("variation", .string "off")]),
    ("metadata", .object [("owner", .null)]), ("note", .string "reviewed"),
    ("targeting", .array [.object [("name", .string " admins "), ("note", .null),
      ("query", .string "role  eq \"admin\""), ("variation", .string "large")]]),
    ("variations", mixedValues)]

end Sample

/-- An object that validates is stored with its variations and metadata as they are, and with
its rules in their order under the same names and queries; and members that a draft does not
know change neither whether an object validates nor what comes of it. -/
theorem validateDocument_verbatim {ms : List (String × Json)}
    (hdoc : (Json.object ms).WellFormed) :
    (∀ doc', ConfigDraft.shape.known doc' = ConfigDraft.shape.known (.object ms) →
      validateDocument doc' = validateDocument (.object ms)) ∧
    ∀ c, validateDocument (.object ms) = .ok c →
      c.toDocument.get? "variations" = Json.member? "variations" ms ∧
      c.toDocument.get? "metadata" = Json.unlessEmpty (Json.member? "metadata" ms) ∧
      Json.ruleTexts (c.toDocument.get? "targeting") =
        Json.ruleTexts (Json.member? "targeting" ms) := by
  refine ⟨fun doc' => validateDocument_of_known, fun c hconfig => ?_⟩
  obtain ⟨d, hread, _, hlift, hvalid⟩ := validateDocument_eq_ok_iff.1 hconfig
  have hspells := Lift.config_eq_ok_iff.1 hlift
  have htold := ConfigDraft.readFrom_of_decode hread
  have hmembers : ∀ key v, Json.member? key ms = some v → v.WellFormed := by
    intro key v hget
    cases hdoc with
    | object _ hwell =>
        have hsource : (FieldSource.members ms).WellFormed := hwell
        have hfound : (FieldSource.members ms).get? key 0 = some v := hget
        exact FieldSource.wellFormed_of_get? hsource hfound
  have hwell := FlagConfig.wellFormed_of_validate hvalid
  have hvariations := htold.variations
  rw [← hspells.variations] at hvariations
  have hmetadata := htold.metadata
  rw [← hspells.metadata] at hmetadata
  refine ⟨FlagConfig.variations_toDocument (hmembers _) hvariations hwell.varied,
    FlagConfig.metadata_toDocument (hmembers _) hmetadata, ?_⟩
  rw [FlagConfig.ruleTexts_toDocument]
  exact (ruleTexts_of_told htold.targeting hspells.targeting hwell.top_level.each_rule).symm

/-- Numbers of all kinds, a name with blanks around it, and notes that no part of a
configuration knows. -/
theorem noted_document_verbatim :
    ∃ c, validateDocument (.object Sample.notedDocument) = .ok c ∧
      c.toDocument.get? "variations" = some Sample.mixedValues ∧
      c.toDocument.get? "metadata" = some (.object [("owner", .null)]) ∧
      Json.ruleTexts (c.toDocument.get? "targeting") =
        [(some (.string " admins "), some (.string "role  eq \"admin\""))] ∧
      validateDocument (.object Sample.plainDocument) = .ok c := by
  have hdoc : (Json.object Sample.notedDocument).WellFormed := by decide +kernel
  obtain ⟨hknown, hverbatim⟩ := validateDocument_verbatim hdoc
  obtain ⟨c, hc⟩ : ∃ c, validateDocument (.object Sample.notedDocument) = .ok c :=
    exists_ok_of_fault? (by decide +kernel)
  obtain ⟨hvariations, hmetadata, htargeting⟩ := hverbatim c hc
  exact ⟨c, hc, hvariations, hmetadata, htargeting, (hknown _ rfl).trans hc⟩

end FlagGovernance
