import FlagGovernance.Audit.Event
import FlagGovernance.Proofs.Config.Typed
import FlagGovernance.Proofs.Identifier
/-
Change requests, reviews and audit events, read again.

Each is read back from the document that it is written as, whatever its texts, actors,
identifiers and dates.  A request with its reviews is one object, and its two parts are
found beside each other because they share no key.  A snapshot, changes or metadata that
is `null` would be read as absent, so only those are left out.
-/

namespace FlagGovernance

open Decode Record

namespace Decode

variable {α : Type}

/-- An alternative that carries nothing is read from its name. -/
theorem reads_bare {choices : List (String × Alternative α)} {name : String} {a : α}
    (hname : alternative choices name = .ok (.nothing a)) :
    Reads (choice choices) (Json.string name).sorted a :=
  fun _ => bind_of_ok hname _

theorem reads_uuid (id : Uuid) : Reads uuid id.toJson.sorted id := by
  intro r
  have hsorted : id.toJson.sorted = .string id.text := rfl
  rw [hsorted, uuid, id.ofText_text]
  rfl

theorem reads_natural (wanted : String) (n : Nat) :
    Reads (natural wanted) (Json.ofNat n).sorted n := by
  intro r
  have hsorted : (Json.ofNat n).sorted = .number (.integer n) := rfl
  rw [hsorted, natural, if_pos (Int.natCast_nonneg n), Int.toNat_natCast]

theorem reads_json {v : Json} (hv : v.WellFormed) : Reads json v.sorted v :=
  fun _ => congrArg Except.ok (Json.sorted_of_wellFormed hv)

/-- A text that is told only if there is one. -/
theorem finds_text {key : String} {ms : List (String × Json)} (text? : Option String)
    (hmember : Json.member? key ms = text?.map Json.string) :
    (optional key string).Finds (Json.sortedMembers ms) text? :=
  finds_optional Json.string text? hmember (fun text _ => ⟨reads_string text, Json.noConfusion⟩)

end Decode

/-- If there is a document, it is well-formed and something else than `null`. -/
def Json.Telling (v? : Option Json) : Prop := ∀ v, v? = some v → v.WellFormed ∧ v ≠ .null

theorem Status.reads_toJson (s : Status) : Reads Status.decode s.toJson.sorted s := by
  cases s <;> exact reads_bare rfl

theorem Decision.reads_toJson (d : Decision) : Reads Decision.decode d.toJson.sorted d := by
  cases d <;> exact reads_bare rfl

theorem ActorKind.reads_toJson (k : ActorKind) : Reads ActorKind.decode k.toJson.sorted k := by
  cases k <;> exact reads_bare rfl

theorem ResourceType.reads_toJson (t : ResourceType) :
    Reads ResourceType.decode t.toJson.sorted t := by
  cases t <;> exact reads_bare rfl

theorem AuditAction.reads_toJson (a : AuditAction) :
    Reads AuditAction.decode a.toJson.sorted a := by
  cases a <;> exact reads_bare rfl

theorem Actor.reads_toJson (a : Actor) : Reads Actor.decode a.toJson.sorted a := by
  refine reads_record (((((finds_member ?_ (reads_string a.id) _).map _).seq
    (finds_text a.email ?_)).seq (finds_text a.name ?_)).seq
      (finds_member ?_ (ActorKind.reads_toJson a.kind) _)) _
  · rfl
  · simp
  · simp
  · simp

theorem Review.reads_toJson (r : Review) : Reads Review.decode r.toJson.sorted r := by
  refine reads_record (((((((finds_member ?_ (reads_uuid r.id) _).map _).seq
    (finds_member ?_ (reads_uuid r.requestId) _)).seq
    (finds_member ?_ (Actor.reads_toJson r.reviewer) _)).seq
    (finds_member ?_ (Decision.reads_toJson r.decision) _)).seq (finds_text r.comment ?_)).seq
      (finds_member ?_ (reads_instant r.createdAt) _)) _
  · rfl
  · simp
  · simp
  · simp
  · simp
  · simp

namespace ChangeRequest

/-- The documents of a request have a form of their own. -/
structure Storable (r : ChangeRequest) : Prop where
  current : Json.Telling r.currentConfig
  proposed : r.proposedConfig.WellFormed

/-- A snapshot is written as `null` where there is none. -/
theorem finds_currentConfig {r : ChangeRequest} (hr : Json.Telling r.currentConfig)
    {ms : List (String × Json)}
    (hmember : Json.member? "currentConfig" ms = some (r.currentConfig.getD .null)) :
    (nullable "currentConfig" json).Finds (Json.sortedMembers ms) r.currentConfig := by
  cases hcurrent : r.currentConfig with
  | none =>
      rw [hcurrent] at hmember
      have hnull : Reads (option json) Json.null.sorted none := fun _ => rfl
      exact finds_member hmember hnull _
  | some v =>
      rw [hcurrent, Option.getD_some] at hmember
      obtain ⟨hv, hnull⟩ := hr v hcurrent
      exact finds_some hmember (reads_json hv) ((Json.sorted_of_wellFormed hv).symm ▸ hnull)

/-- The request is found wherever its members are, whatever stands among the reviews. -/
theorem finds_fields {r : ChangeRequest} (hr : r.Storable) {ms : List (String × Json)}
    (hms : ∀ key, key ≠ "reviews" → Json.member? key ms = Json.member? key r.toMembers) :
    fields.Finds (Json.sortedMembers ms) r := by
  have hmember : ∀ {key : String} {v? : Option Json}, key ≠ "reviews" →
      Json.member? key r.toMembers = v? → Json.member? key ms = v? :=
    fun hkey hv => (hms _ hkey).trans hv
  have hid : (required "id" uuid).Finds (Json.sortedMembers ms) r.id :=
    finds_member (hmember (by decide) rfl) (reads_uuid r.id) _
  have htitle : (required "title" string).Finds (Json.sortedMembers ms) r.title :=
    finds_member (hmember (by decide) rfl) (reads_string r.title) _
  have hdescription : (optional "description" string).Finds (Json.sortedMembers ms)
      r.description :=
    finds_text r.description (hmember (by decide) (by simp [toMembers]))
  have htype : (required "resourceType" ResourceType.decode).Finds (Json.sortedMembers ms)
      r.resourceType :=
    finds_member (hmember (by decide) (by simp [toMembers])) r.resourceType.reads_toJson _
  have hproject : (required "project" string).Finds (Json.sortedMembers ms) r.project :=
    finds_member (hmember (by decide) (by simp [toMembers])) (reads_string r.project) _
  have hflagKey : (required "flagKey" string).Finds (Json.sortedMembers ms) r.flagKey :=
    finds_member (hmember (by decide) (by simp [toMembers])) (reads_string r.flagKey) _
  have hcurrent : (nullable "currentConfig" json).Finds (Json.sortedMembers ms)
      r.currentConfig :=
    finds_currentConfig hr.current (hmember (by decide) (by simp [toMembers]))
  have hproposed : (required "proposedConfig" json).Finds (Json.sortedMembers ms)
      r.proposedConfig :=
    finds_member (hmember (by decide) (by simp [toMembers])) (reads_json hr.proposed) _
  have hstatus : (required "status" Status.decode).Finds (Json.sortedMembers ms) r.status :=
    finds_member (hmember (by decide) (by simp [toMembers])) r.status.reads_toJson _
  have hauthor : (required "author" Actor.decode).Finds (Json.sortedMembers ms) r.author :=
    finds_member (hmember (by decide) (by simp [toMembers])) r.author.reads_toJson _
  have hcreatedAt : (required "createdAt" instant).Finds (Json.sortedMembers ms) r.createdAt :=
    finds_member (hmember (by decide) (by simp [toMembers])) (reads_instant r.createdAt) _
  have hupdatedAt : (required "updatedAt" instant).Finds (Json.sortedMembers ms) r.updatedAt :=
    finds_member (hmember (by decide) (by simp [toMembers])) (reads_instant r.updatedAt) _
  have happliedAt : (optional "appliedAt" instant).Finds (Json.sortedMembers ms) r.appliedAt :=
    finds_optional Instant.toJson r.appliedAt (hmember (by decide) (by simp [toMembers]))
      (fun time _ => ⟨reads_instant time, Json.noConfusion⟩)
  have happliedBy : (optional "appliedBy" Actor.decode).Finds (Json.sortedMembers ms)
      r.appliedBy :=
    finds_optional Actor.toJson r.appliedBy (hmember (by decide) (by simp [toMembers]))
      (fun actor _ => ⟨actor.reads_toJson, Json.noConfusion⟩)
  have hrevision : (optional "baseRevision" (natural "u64")).Finds (Json.sortedMembers ms)
      r.baseRevision :=
    finds_optional Json.ofNat r.baseRevision (hmember (by decide) (by simp [toMembers]))
      (fun revision _ => ⟨reads_natural "u64" revision, Json.noConfusion⟩)
  exact ((((((((((((((hid.map _).seq htitle).seq hdescription).seq htype).seq hproject).seq
    hflagKey).seq hcurrent).seq hproposed).seq hstatus).seq hauthor).seq hcreatedAt).seq
    hupdatedAt).seq happliedAt).seq happliedBy).seq hrevision

theorem reads_toJson {r : ChangeRequest} (hr : r.Storable) :
    Reads decode r.toJson.sorted r :=
  reads_record (finds_fields hr (fun _ _ => rfl)) _

theorem member?_reviews (r : ChangeRequest) : Json.member? "reviews" r.toMembers = none := by
  simp [toMembers]

end ChangeRequest

theorem RequestDetail.reads_toJson {d : RequestDetail} (hd : d.request.Storable) :
    Reads RequestDetail.decode d.toJson.sorted d := by
  have hreviews : Json.member? "reviews"
      (d.request.toMembers ++ [("reviews", .array (d.reviews.map Review.toJson))]) =
        some (.array (d.reviews.map Review.toJson)) := by
    simp [d.request.member?_reviews]
  have hothers : ∀ key, key ≠ "reviews" → Json.member? key
      (d.request.toMembers ++ [("reviews", .array (d.reviews.map Review.toJson))]) =
        Json.member? key d.request.toMembers := by
    intro key hkey
    simp [hkey]
  have hown := finds_member hreviews
    (reads_items (fun review _ => Review.reads_toJson review)) (fun _ => none)
  have hpart := members_of_finds (ChangeRequest.finds_fields hd hothers) .aside
  intro reading
  rw [decode, toJson, Json.sorted]
  exact (bind_of_ok (Reads.spread hown hpart "ChangeRequestDetail" reading) _).trans rfl

namespace AuditEvent

/-- What the event tells of the change has a form of its own. -/
structure Storable (e : AuditEvent) : Prop where
  changes : Json.Telling e.changes
  metadata : Json.Telling e.metadata

theorem finds_telling {v? : Option Json} (hv : Json.Telling v?) {key : String}
    {ms : List (String × Json)} (hmember : Json.member? key ms = v?) :
    (optional key json).Finds (Json.sortedMembers ms) v? := by
  refine finds_optional (fun v => v) v? (by simpa using hmember) (fun v hsome => ?_)
  obtain ⟨hform, hnull⟩ := hv v hsome
  exact ⟨reads_json hform, (Json.sorted_of_wellFormed hform).symm ▸ hnull⟩

theorem reads_toJson {e : AuditEvent} (he : e.Storable) : Reads decode e.toJson.sorted e := by
  refine reads_record (((((((((((finds_member ?_ (reads_uuid e.id) _).map _).seq
    (finds_member ?_ (reads_instant e.timestamp) _)).seq
    (finds_member ?_ e.actor.reads_toJson _)).seq
    (finds_member ?_ e.action.reads_toJson _)).seq
    (finds_member ?_ (reads_string e.resourceType) _)).seq
    (finds_member ?_ (reads_string e.resourceId) _)).seq
    (finds_member ?_ (reads_string e.resourceName) _)).seq
    (finds_member ?_ (reads_string e.project) _)).seq
    (finds_telling he.changes ?_)).seq (finds_telling he.metadata ?_)) _
  all_goals simp

end AuditEvent

namespace Sample

end Sample

end FlagGovernance
