import FlagGovernance.Proofs.Audit.Emission
import FlagGovernance.Proofs.Json.WellFormed
/-
What an event tells of a flag.

The event of an applied flag tells its key, the entry that was written, the entry
that was replaced and whether the project was new.  No other event tells of a flag.
-/

namespace FlagGovernance

namespace AuditEvent

/-- What the metadata of an event tell under a name. -/
def metadata? (name : String) (event : AuditEvent) : Option Json :=
  event.metadata.bind (Json.get? name)

/-- The text that the metadata of an event tell under a name. -/
def text? (name : String) (event : AuditEvent) : Option String :=
  match event.metadata? name with
  | some (.string text) => some text
  | _ => none

/-- The document that an event tells was replaced. -/
def before? (event : AuditEvent) : Option Json :=
  event.changes.bind (Json.get? "before")

/-- The document that an event tells was written. -/
def after? (event : AuditEvent) : Option Json :=
  event.changes.bind (Json.get? "after")

/-- The key of the flag that was applied, if the event tells of one. -/
def appliedKey? (event : AuditEvent) : Option FlagId :=
  if event.action = .applied ∧ event.text? "targetType" = some ResourceType.flag.name then
    (event.text? "flagKey").map (FlagId.mk event.project)
  else none

/-- The project of the flag that was applied. -/
def appliedProject? (event : AuditEvent) : Option String :=
  event.appliedKey?.map FlagId.project

/-- The event tells of no applied flag. -/
structure Quiet (event : AuditEvent) : Prop where
  key : event.appliedKey? = none
  projectCreated : event.metadata? "projectCreated" = none

/-- The event tells which entry was written. -/
structure TellsEntry (event : AuditEvent) (flag : StoredFlag) : Prop where
  revision : event.metadata? "revision" = some (.ofNat flag.revision)
  after : event.after? = some flag.config.toDocument

/-- The event tells which entry was replaced, if there was one. -/
structure TellsPrevious (event : AuditEvent) (previous : Option StoredFlag) : Prop where
  revision : event.metadata? "previousRevision" =
    some (.ofOption .ofNat (previous.map StoredFlag.revision))
  before : event.before? = some ((previous.map (fun f => f.config.toDocument)).getD .null)

theorem appliedKey?_of_action_ne {event : AuditEvent} (haction : event.action ≠ .applied) :
    event.appliedKey? = none :=
  if_neg fun happlied => haction happlied.1

@[simp] theorem metadata?_forRequest (name : String) (stamp : Stamp) (action : AuditAction)
    (actor : Actor) (request : ChangeRequest) :
    (forRequest stamp action actor request).metadata? name =
      Json.member? name [("flagKey", .string request.flagKey),
        ("targetType", request.resourceType.toJson)] :=
  rfl

@[simp] theorem metadata?_withChanges (name : String) (event : AuditEvent) (changes : Json) :
    (event.withChanges changes).metadata? name = event.metadata? name :=
  rfl

/-- Metadata that are added hold over those there were. -/
theorem metadata?_withMetadata (name : String) {event : AuditEvent}
    {members : List (String × Json)} (hmembers : event.metadata = some (.object members))
    (extra : List (String × Json)) :
    (event.withMetadata (.object extra)).metadata? name =
      (Json.member? name extra.reverse).or (event.metadata? name) := by
  have hbefore : event.metadata? name = Json.member? name members := by
    rw [metadata?, hmembers]
    rfl
  have hafter : (event.withMetadata (.object extra)).metadata =
      some (.object (extra.foldl (fun ms m => Json.setMember ms m.1 m.2) members)) := by
    simp only [withMetadata, hmembers]
  rw [metadata?, hafter, hbefore]
  exact Json.member?_setMembers members extra name

end AuditEvent

namespace Governance

theorem createdEvent_quiet (stamp : Stamp) (author : Actor) (request : ChangeRequest) :
    (createdEvent stamp author request).Quiet where
  key := AuditEvent.appliedKey?_of_action_ne nofun
  projectCreated := by
    rw [createdEvent, AuditEvent.metadata?_withMetadata _ rfl]
    simp

theorem reviewedEvent_quiet (stamp : Stamp) (request : ChangeRequest) (review : Review) :
    (reviewedEvent stamp request review).Quiet where
  key := by
    obtain ⟨metadata, hevent⟩ := reviewedEvent_eq stamp request review
    apply AuditEvent.appliedKey?_of_action_ne
    rw [hevent]
    nofun
  projectCreated := by
    rw [reviewedEvent]
    cases review.comment with
    | none => simp
    | some comment =>
        dsimp only
        rw [AuditEvent.metadata?_withMetadata _ rfl]
        simp

theorem cancelledEvent_quiet (stamp : Stamp) (actor : Actor) (before : Status)
    (request : ChangeRequest) : (cancelledEvent stamp actor before request).Quiet where
  key := AuditEvent.appliedKey?_of_action_ne nofun
  projectCreated := by simp [cancelledEvent]

/-- Applying a request for anything but a flag tells of no flag. -/
theorem appliedEvent_quiet (stamp : Stamp) (actor : Actor) {change : AppliedChange}
    (hother : change.request.resourceType ≠ .flag) (hflag : change.flag = none) :
    (appliedEvent stamp actor change).Quiet := by
  rw [appliedEvent, hflag]
  constructor
  · have htype : (AuditEvent.forRequest stamp .applied actor change.request).text? "targetType" ≠
        some ResourceType.flag.name := by
      cases htype : change.request.resourceType with
      | flag => contradiction
      | segment | flagset =>
          simp [AuditEvent.text?, htype, ResourceType.toJson, ResourceType.name]
    exact if_neg fun happlied => htype happlied.2
  · simp

/-- The event of an applied flag tells all of its change. -/
theorem appliedEvent_tells (stamp : Stamp) (actor : Actor) {change : AppliedChange}
    (htype : change.request.resourceType = .flag) {flag : StoredFlag}
    (hflag : change.flag = some flag) :
    let event := appliedEvent stamp actor change
    event.appliedKey? = some ⟨change.request.project, flag.key⟩ ∧
      event.TellsPrevious change.previous ∧ event.TellsEntry flag ∧
      event.metadata? "projectCreated" = some (.bool change.projectCreated) := by
  intro event
  have hevent : event = appliedEvent stamp actor change := rfl
  rw [appliedEvent, hflag] at hevent
  have hmetadata (name : String) : event.metadata? name =
      (Json.member? name [("revision", .ofNat flag.revision),
        ("projectCreated", .bool change.projectCreated),
        ("previousRevision", .ofOption .ofNat (change.previous.map StoredFlag.revision)),
        ("flagKey", .string flag.key)]).or
      (Json.member? name [("flagKey", .string change.request.flagKey),
        ("targetType", .string ResourceType.flag.name)]) := by
    rw [hevent, AuditEvent.metadata?_withMetadata _ rfl, AuditEvent.metadata?_withChanges,
      AuditEvent.metadata?_forRequest, htype]
    rfl
  refine ⟨?_, ⟨?_, ?_⟩, ⟨?_, ?_⟩, ?_⟩
  · have hkey : event.text? "flagKey" = some flag.key := by simp [AuditEvent.text?, hmetadata]
    have htarget : event.text? "targetType" = some ResourceType.flag.name := by
      simp [AuditEvent.text?, hmetadata]
    have haction : event.action = .applied := by rw [hevent]; rfl
    have hproject : event.project = change.request.project := by rw [hevent]; rfl
    rw [AuditEvent.appliedKey?, if_pos ⟨haction, htarget⟩, hkey, hproject]
    rfl
  · simp [hmetadata]
  · rw [hevent]
    rfl
  · simp [hmetadata]
  · rw [hevent]
    rfl
  · simp [hmetadata]

end Governance

end FlagGovernance
