import FlagGovernance.Proofs.Config.Readings
import FlagGovernance.Proofs.Time.Loose
/-
Typed configurations, read again.

The stored form of a configuration that has a JSON form is read as that configuration,
whatever its dates: every part of it reads what it was written as.  A configuration that
was read from a document has such a form.
-/

namespace FlagGovernance

open Decode Record

namespace Decode

variable {α : Type} {d : Decoder α} {encode : α → Json} {items : List α}

theorem reads_instant (i : Instant) : Reads instant i.toJson.sorted i := by
  intro r
  have hsorted : i.toJson.sorted = .string i.text := rfl
  rw [hsorted, instant, i.ofLoose_text]
  rfl

theorem reads_items (hitems : ∀ a ∈ items, Reads d (encode a).sorted a) :
    Reads (list d) (Json.array (items.map encode)).sorted items := by
  have hlist := reads_list (f := id) hitems
  rwa [List.map_id] at hlist

theorem finds_items {key : String} {ms : List (String × Json)}
    (hmember : Json.member? key ms =
      (if items.isEmpty then none else some items).map (fun items => .array (items.map encode)))
    (hitems : ∀ a ∈ items, Reads d (encode a).sorted a) :
    (defaulted key (list d) []).Finds (Json.sortedMembers ms) items := by
  have hfound := finds_list (f := id) hmember hitems
  rwa [List.map_id] at hfound

theorem finds_optional {key : String} {ms : List (String × Json)} (encode : α → Json)
    (a? : Option α) (hmember : Json.member? key ms = a?.map encode)
    (hd : ∀ a, a? = some a → Reads d (encode a).sorted a ∧ (encode a).sorted ≠ .null) :
    (optional key d).Finds (Json.sortedMembers ms) a? := by
  change (field key (option d) (fun _ => some none)).Finds _ _
  exact finds_kept encode a? (fun _ => rfl) hmember hd

end Decode

theorem RampEnd.reads_typed {e : RampEnd} (he : e.Storable) :
    Reads RampEnd.decode e.toJson.sorted e := by
  refine reads_record ((((finds_member ?_ (reads_string e.variation) _).map _).seq
    (finds_percentage he (fun _ => rfl))).seq (finds_member ?_ (reads_instant e.date) _)) _
  · simp [members]
  · simp [members]

theorem Ramp.reads_typed {r : Ramp} (hr : r.Storable) :
    Reads Ramp.decode r.toJson.sorted r :=
  reads_record (((finds_member rfl (RampEnd.reads_typed hr.initial) _).map _).seq
    (finds_member (by simp) (RampEnd.reads_typed hr.final) _)) _

namespace Selection

/-- The member of a selection is one of the choices and carries that selection. -/
theorem carries_toMember {s : Selection} (hs : s.Storable) :
    Carries choices (s.toMember.1, s.toMember.2.sorted) s := by
  cases s with
  | variation name => exact ⟨_, rfl, (reads_string name).mapped _⟩
  | percentage split =>
      have hweights := fun weight hmem => reads_double (hs weight hmem)
      exact ⟨_, rfl, (reads_map hweights).mapped _⟩
  | progressive ramp => exact ⟨_, rfl, (Ramp.reads_typed hs).mapped _⟩

theorem reads_typed {s : Selection} (hs : s.Storable) : Reads decode s.toJson.sorted s :=
  Reads.choice (carries_toMember hs)

/-- The key names one of the choices. -/
def isChoice (key : String) : Bool := choices.any (fun c => c.1 == key)

theorem isChoice_name (mode : Mode) : isChoice mode.name = true := by
  cases mode <;> rfl

theorem exists_mode_of_isChoice {key : String} (hkey : isChoice key = true) :
    ∃ mode : Mode, key = mode.name := by
  simp only [isChoice, choices, List.any_cons, List.any_nil, Bool.or_false, Bool.or_eq_true,
    beq_iff_eq] at hkey
  rcases hkey with hkey | hkey | hkey
  · exact ⟨_, hkey.symm⟩
  · exact ⟨_, hkey.symm⟩
  · exact ⟨_, hkey.symm⟩

end Selection

namespace TargetingRule

theorem eq_mode_of_mem {r : TargetingRule} {m : String × Json}
    (hmem : m ∈ Json.sortedMembers r.members) (hkey : Selection.isChoice m.1 = true) :
    m.1 = r.selection.toMember.1 := by
  obtain ⟨mode, hmode⟩ := Selection.exists_mode_of_isChoice hkey
  have hthere := Json.member?_ne_none_of_mem hmem
  rw [Json.member?_sortedMembers, hmode, r.member?_mode] at hthere
  split at hthere
  · next hsame => rw [hmode, r.selection.fst_toMember, hsame]
  · contradiction

/-- Among the members of a rule its selection is the one that names a choice. -/
theorem find?_isChoice (r : TargetingRule) :
    (Json.sortedMembers r.members).find? (fun m => Selection.isChoice m.1) =
      some (r.selection.toMember.1, r.selection.toMember.2.sorted) := by
  refine Json.find?_of_member? ?_ ?_ (fun m => eq_mode_of_mem)
  · rw [Json.member?_sortedMembers, r.selection.fst_toMember, r.member?_mode, if_pos rfl]
    rfl
  · rw [r.selection.fst_toMember, Selection.isChoice_name]

theorem finds_disable (r : TargetingRule) :
    (defaulted "disable" bool false).Finds (Json.sortedMembers r.members) r.disable := by
  have hmember := r.member?_disable
  cases hdisable : r.disable with
  | false =>
      rw [hdisable] at hmember
      refine finds_field_absent ?_ rfl
      rw [Json.member?_sortedMembers, hmember]
      rfl
  | true =>
      rw [hdisable] at hmember
      exact finds_member hmember (reads_bool true) _

theorem reads_typed {r : TargetingRule} (hr : r.selection.Storable) :
    Reads decode r.toJson.sorted r := by
  have hname : Json.member? "name" r.members = some (.string r.name) := rfl
  have hquery : Json.member? "query" r.members = some (.string r.query) := rfl
  have hown := (((finds_member hname (reads_string r.name) (fun _ => none)).map
    (fun name query (disable : Bool) => (name, query, disable))).seq
      (finds_member hquery (reads_string r.query) (fun _ => none))).seq r.finds_disable
  have hpart :=
    spreadChoice_of_carries (Selection.carries_toMember hr) r.find?_isChoice "Resolution"
  intro reading
  rw [decode, toJson, Json.sorted]
  exact (bind_of_ok (Reads.spread hown hpart "TargetingRule" reading) _).trans rfl

end TargetingRule

theorem ScheduledStep.reads_typed {s : ScheduledStep} (hs : s.Storable) :
    Reads ScheduledStep.decode s.toJson.sorted s := by
  refine reads_record ((((finds_member ?_ (reads_instant s.date) _).map _).seq
    (finds_optional (fun rules => .array (rules.map TargetingRule.toJson)) s.targeting ?_
      (fun rules hrules => ?_))).seq
    (finds_member ?_ (Selection.reads_typed hs.default_rule) _)) _
  · rfl
  · simp
  · have htargeting := hs.targeting rules hrules
    exact ⟨reads_items (fun rule hmem => TargetingRule.reads_typed (htargeting rule hmem)),
      Json.noConfusion⟩
  · simp

theorem Experiment.reads_typed (e : Experiment) : Reads Experiment.decode e.toJson.sorted e := by
  refine reads_record (((finds_optional Instant.toJson e.start ?_
    (fun date _ => ⟨reads_instant date, Json.noConfusion⟩)).map _).seq
    (finds_optional Instant.toJson e.finish ?_
      (fun date _ => ⟨reads_instant date, Json.noConfusion⟩))) _
  · simp
  · simp

namespace Sample

/-- Every way to select, in rules and steps, every kind of number, and dates far from
their stored form. -/
def wideDocument : Json :=
  .object [
    ("defaultRule", .object [("percentage", .object [("blue", .number (.integer 40)),
      ("red", .number (.real ⟨0x404E000000000000⟩))])]),
    ("disable", .bool true),
    ("experimentation", .object [("end", .string "+12000-1-1 0:0:0 utc"), ("start", .null)]),
    ("metadata", .object [("owner", .array [.null])]),
    ("scheduledRollout", .array [
      .object [("date", .string "2017-02-01T02:00:00+02:00"),
        ("defaultRule", .object [("variation", .string "")]), ("targeting", .array [])],
      .object [("date", .string "-0001-12-31 23:59:60.5-01:00"),
        ("defaultRule", .object [("percentage", .object [])])]]),
    ("targeting", .array [
      .object [("name", .string ""), ("progressiveRollout", .object [
        ("end", .object [("date", .string "2016-12-31 23:59:60z"), ("variation", .string "red")]),
        ("initial", .object [("date", .string "2016-12-1 0:00:00Z"),
          ("percentage", .number (.integer (-5))), ("variation", .string "blue")])]),
        ("query", .string "")],
      .object [("disable", .bool true), ("name", .string "admins"),
        ("query", .string "role eq \"admin\""), ("variation", .string "green")]]),
    ("variations", .object [("blue", .null), ("green", .number (.integer 18446744073709551615)),
      ("red", .number (.integer (-1))), ("white", .number (.real ⟨0x8000000000000000⟩))])]

end Sample

namespace FlagConfig

/-- A configuration that has a JSON form is read from it. -/
theorem reads_typed {c : FlagConfig} (hc : c.Storable) : Reads decode c.toDocument c := by
  have hvariations : (required "variations" (map Variation.decode)).Finds
      (Json.sortedMembers c.members) c.variations :=
    finds_member (by simp [members])
      (reads_map (fun x hmem => Variation.reads_toJson (hc.variations x hmem))) _
  have htargeting : (defaulted "targeting" (list TargetingRule.decode) []).Finds
      (Json.sortedMembers c.members) c.targeting :=
    finds_items (by simp [members])
      (fun rule hmem => TargetingRule.reads_typed (hc.targeting rule hmem))
  have hdefault : (required "defaultRule" Selection.decode).Finds
      (Json.sortedMembers c.members) c.defaultRule :=
    finds_member (by simp [members]) (Selection.reads_typed hc.default_rule) _
  have hschedule : (defaulted "scheduledRollout" (list ScheduledStep.decode) []).Finds
      (Json.sortedMembers c.members) c.schedule :=
    finds_items (by simp [members])
      (fun step hmem => ScheduledStep.reads_typed (hc.schedule step hmem))
  have hexperiment : (optional "experimentation" Experiment.decode).Finds
      (Json.sortedMembers c.members) c.experiment :=
    finds_optional Experiment.toJson c.experiment (by simp [members])
      (fun e _ => ⟨e.reads_typed, Json.noConfusion⟩)
  have hdisable : (defaulted "disable" bool false).Finds
      (Json.sortedMembers c.members) c.disable :=
    finds_member (by simp [members]) (reads_bool c.disable) _
  have htrackEvents : (defaulted "trackEvents" bool true).Finds
      (Json.sortedMembers c.members) c.trackEvents :=
    finds_member (by simp [members]) (reads_bool c.trackEvents) _
  have hversion : (optional "version" string).Finds (Json.sortedMembers c.members) c.version :=
    finds_optional Json.string c.version (by simp [members])
      (fun s _ => ⟨reads_string s, Json.noConfusion⟩)
  have hkey : (optional "bucketingKey" string).Finds (Json.sortedMembers c.members)
      c.bucketingKey :=
    finds_optional Json.string c.bucketingKey (by simp [members])
      (fun s _ => ⟨reads_string s, Json.noConfusion⟩)
  exact reads_record ((((((((((hvariations.map _).seq htargeting).seq hdefault).seq hschedule).seq
    hexperiment).seq hdisable).seq htrackEvents).seq hversion).seq hkey).seq
      (finds_metadata hc.metadata)) _

/-- A typed configuration that was read from any document is read again from the document
that it is written as. -/
theorem decode_toDocument {v : Json} {reading : Reading} {c : FlagConfig} (hv : v.WellFormed)
    (hread : decode reading v = .ok c) (again : Reading) : decode again c.toDocument = .ok c :=
  reads_typed (ensures_decode reading v c hv hread) again

/-- A year before the first, one of five digits, and a leap second among its dates. -/
theorem wide_document_read_again :
    ∃ c, decode .direct Sample.wideDocument = .ok c ∧
      c.dates.map Instant.text = ["2016-12-01T00:00:00Z", "2016-12-31T23:59:60Z",
        "2017-02-01T00:00:00Z", "0000-01-01T00:59:60.500Z", "+12000-01-01T00:00:00Z"] ∧
      decode .direct c.toDocument = .ok c := by
  have hread : (decode .direct Sample.wideDocument).toOption.map
      (fun c => c.dates.map Instant.text) = some ["2016-12-01T00:00:00Z", "2016-12-31T23:59:60Z",
        "2017-02-01T00:00:00Z", "0000-01-01T00:59:60.500Z", "+12000-01-01T00:00:00Z"] := by
    decide +kernel
  cases hconfig : decode .direct Sample.wideDocument with
  | error => rw [hconfig] at hread; contradiction
  | ok c =>
      rw [hconfig] at hread
      exact ⟨c, rfl, Option.some.inj hread, decode_toDocument (by decide +kernel) hconfig .direct⟩

end FlagConfig

end FlagGovernance
