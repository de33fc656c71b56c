import FlagGovernance.Proofs.Config.Restored
import FlagGovernance.Proofs.Workflow.Applied
/-
Where live flags come from.

Names are checked when a request is opened, the configuration when it is applied.
By way of the workflow only, nothing else brings a flag or a project: each entry
goes back to a request that stands applied, and a project is there for its flags.
-/

namespace FlagGovernance

/-- A configuration that comes of a document keeps every rule. -/
theorem validate_of_validateDocument {doc : Json} {config : FlagConfig}
    (hconfig : validateDocument doc = .ok config) : config.validate = .ok () := by
  obtain ⟨_, _, _, _, hvalid⟩ := validateDocument_eq_ok_iff.1 hconfig
  exact hvalid

namespace Proposal

/-- A proposal is only opened under names that its resource may have. -/
theorem names_of_check {p : Proposal} (hcheck : p.check = .ok ()) :
    checkProjectName p.project = .ok () ∧
      (p.resourceType = .flag → checkFlagKey p.flagKey = .ok ()) := by
  rw [check] at hcheck
  obtain ⟨_, hnames⟩ := ite_throw_eq_ok_iff.1 hcheck
  obtain ⟨_, hproject, hkey⟩ := bind_eq_ok_iff.1 hnames
  refine ⟨mapError_eq_ok_iff.1 hproject, fun hflag => ?_⟩
  rw [if_pos hflag] at hkey
  exact mapError_eq_ok_iff.1 hkey

end Proposal

theorem Operation.kind_ne_requestStore {op : Operation} (hgoverned : op.governed = true) :
    op.kind ≠ .requestStore := by
  intro hkind
  rw [Operation.governed, hkind] at hgoverned
  contradiction

namespace Store

/-- The projects are those that have flags. -/
def ProjectsInUse (s : Store) : Prop :=
  ∀ project, project ∈ s.listProjects ↔ ∃ key, s.flags.find? ⟨project, key⟩ ≠ none

theorem ProjectsInUse.withFlagWrite {s : Store} (hinUse : s.ProjectsInUse)
    (write : Option FlagWrite) (now : Instant) : (s.withFlagWrite write now).ProjectsInUse := by
  cases write with
  | none => exact hinUse
  | some write =>
      intro project
      have hprojects : project ∈ (s.withFlagWrite (some write) now).listProjects ↔
          project = write.project ∨ project ∈ s.listProjects := by
        rw [mem_listProjects_iff, mem_listProjects_iff]
        change (s.projects.insert write.project ()).find? project ≠ none ↔ _
        rw [OrderedMap.find?_insert]
        split <;> simp_all
      rw [hprojects, hinUse project]
      constructor
      · rintro (rfl | ⟨key, hkey⟩)
        · refine ⟨write.key, ?_⟩
          rw [show FlagId.mk write.project write.key = write.id from rfl,
            find?_withFlagWrite_self]
          exact nofun
        · refine ⟨key, ?_⟩
          change ((s.withProject write.project).written write now).flags.find? _ ≠ none
          rw [find?_written]
          split
          · exact nofun
          · exact hkey
      · rintro ⟨key, hkey⟩
        change ((s.withProject write.project).written write now).flags.find? _ ≠ none at hkey
        rw [find?_written] at hkey
        split at hkey
        · next hid => exact .inl (congrArg FlagId.project hid)
        · exact .inr ⟨key, hkey⟩

end Store

namespace Governance

/-- By way of the workflow only, no project is without flags and no flag without
its project. -/
theorem run_projectsInUse (sink : AuditSink) (relay : RelaySignal) (policy : StalePolicy)
    {ops : List Operation} (hgoverned : ∀ op ∈ ops, op.governed = true) :
    ((start sink relay policy).run ops).store.ProjectsInUse := by
  refine run_keeps (P := fun g => g.store.ProjectsInUse) (fun op hmem g hinUse => ?_) ?_
  · have hop := hgoverned op hmem
    have hperformed := g.performed op
    generalize (g.perform op).1 = outcome, g.after op = g' at hperformed
    cases hperformed with
    | refused _ hsame => rw [hsame.store_eq]; exact hinUse
    | answered _ _ _ hsame => rw [hsame.store_eq]; exact hinUse
    | created | reviewed | cancelled | injected => exact hinUse
    | applied id actor time event request flag =>
        rw [announce_store]
        exact hinUse.withFlagWrite flag time
    | seeded | put | ensured | renamed => contradiction
    | inserted | recorded | transitioned | committed => contradiction
  · intro project
    exact iff_of_false nofun (fun ⟨_, hkey⟩ => hkey rfl)

theorem Opening.check_eq_ok {start : Governance} {ops : List Operation} {id : Uuid}
    (opening : start.Opening ops id) : opening.proposal.check = .ok () := by
  have hperformed := performed_as opening.answer
  generalize (start.run opening.before).after
    (.create opening.proposal opening.author opening.stamp opening.event) = g' at hperformed
  cases hperformed with
  | answered _ hkind => contradiction
  | created _ _ _ _ hcheck => exact hcheck

/-- A request that a run has opened keeps the names that were checked. -/
theorem run_names_checked (sink : AuditSink) (relay : RelaySignal) (policy : StalePolicy)
    {ops : List Operation} (hgoverned : ∀ op ∈ ops, op.governed = true) {id : Uuid}
    {request : ChangeRequest}
    (hrequest : ((start sink relay policy).run ops).store.request? id = some request) :
    checkProjectName request.project = .ok () ∧
      (request.resourceType = .flag → checkFlagKey request.flagKey = .ok ()) := by
  obtain ⟨opening⟩ := exists_opening
    (fun op hmem => Operation.kind_ne_requestStore (hgoverned op hmem)) rfl hrequest
  obtain ⟨_, _, _, _, rfl⟩ := opening.advances hrequest
  rw [opening.request_eq.1]
  exact Proposal.names_of_check opening.check_eq_ok

/-- By way of the workflow only, a flag that is live stands under its own key, with
names that were checked and a configuration that validates; it is what a request
that stands applied proposes; and the projects are those that have flags. -/
theorem live_flags_are_validated (sink : AuditSink) (relay : RelaySignal) (policy : StalePolicy)
    {ops : List Operation} (hgoverned : ∀ op ∈ ops, op.governed = true) :
    let g := (start sink relay policy).run ops
    (∀ key flag, g.entryAt key = some flag →
      flag.id = key ∧ flag.config.validate = .ok () ∧
      checkProjectName flag.project = .ok () ∧ checkFlagKey flag.key = .ok () ∧
      flag.project ∈ g.store.listProjects ∧
      ∃ id request, g.store.request? id = some request ∧ request.status = .applied ∧
        request.resourceType = .flag ∧ request.key = key ∧
        validateDocument request.proposedConfig = .ok flag.config) ∧
    ∀ project ∈ g.store.listProjects, ∃ flag, flag ∈ g.store.listFlags project := by
  intro g
  have hinUse := run_projectsInUse sink relay policy hgoverned
  have hstored : ∀ key flag, g.entryAt key = some flag → flag.id = key ∧
      ∃ id request, g.store.request? id = some request ∧ request.appliedTo key = true ∧
        validateDocument request.proposedConfig = .ok flag.config := by
    intro key flag hflag
    obtain ⟨last, _, hmem, hid, hconfig⟩ :=
      (run_accounts sink relay policy hgoverned key).exists_last hflag
    obtain ⟨hvalue, happlied⟩ := List.mem_filter.1 hmem
    obtain ⟨id, hrequest⟩ := OrderedMap.mem_values_iff.1 hvalue
    exact ⟨hid, id, last.request, hrequest, happlied, hconfig⟩
  constructor
  · intro key flag hflag
    obtain ⟨hid, id, request, hrequest, happlied, hconfig⟩ := hstored key flag hflag
    obtain ⟨hproject, hkey⟩ := run_names_checked sink relay policy hgoverned hrequest
    obtain ⟨htype, hstatus, hfor⟩ : request.resourceType = .flag ∧ request.status = .applied ∧
        request.key = key := by simpa [ChangeRequest.appliedTo] using happlied
    have hnames : flag.id = request.key := hid.trans hfor.symm
    refine ⟨hid, validate_of_validateDocument hconfig, ?_, ?_, ?_, id, request, hrequest, hstatus,
      htype, hfor, hconfig⟩
    · rw [show flag.project = request.project from congrArg FlagId.project hnames]
      exact hproject
    · rw [show flag.key = request.flagKey from congrArg FlagId.key hnames]
      exact hkey htype
    · refine (hinUse flag.project).2 ⟨flag.key, ?_⟩
      rw [show FlagId.mk flag.project flag.key = key from hid]
      exact Option.ne_none_iff_exists'.2 ⟨flag, hflag⟩
  · intro project hproject
    obtain ⟨key, hkey⟩ := (hinUse project).1 hproject
    obtain ⟨flag, hflag⟩ := Option.ne_none_iff_exists'.1 hkey
    have hid := (hstored ⟨project, key⟩ flag hflag).1
    refine ⟨flag, List.mem_filter.2 ⟨OrderedMap.mem_values_iff.2 ⟨_, hflag⟩, ?_⟩⟩
    exact beq_iff_eq.2 (congrArg FlagId.project hid)

/-- A flag that is applied after its first commit met a fault, and a segment of
another project. -/
theorem applied_flag_is_validated :
    let ops : List Operation :=
      [.create Sample.proposal Sample.actor (Sample.stamp 1) (Sample.stamp 2),
       .create { Sample.proposal with resourceType := .segment, project := "api" } Sample.actor
         (Sample.stamp 3) (Sample.stamp 4),
       .injectFault .commitApply (.backend "down"),
       .apply (.ofNat 1) Sample.actor Sample.moment (Sample.stamp 5),
       .apply (.ofNat 1) Sample.actor Sample.moment (Sample.stamp 6),
       .apply (.ofNat 3) Sample.actor Sample.moment (Sample.stamp 7)]
    let g := Sample.governance.run ops
    g.store.listProjects = ["web"] ∧ ∃ flag, g.entryAt ⟨"web", "checkout"⟩ = some flag ∧
      flag.config.validate = .ok () ∧ flag.project ∈ g.store.listProjects := by
  intro ops g
  have hgoverned : ∀ op ∈ ops, op.governed = true := by decide
  obtain ⟨hflags, _⟩ := live_flags_are_validated (.log (.empty 100)) .answering .rejectStale
    hgoverned
  obtain ⟨_, hvalid, _, _, hproject, _⟩ := hflags ⟨"web", "checkout"⟩ _ rfl
  exact ⟨rfl, _, rfl, hvalid, hproject⟩

end Governance

end FlagGovernance
