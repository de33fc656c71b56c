import FlagGovernance.Proofs.Config.Restored
import FlagGovernance.Proofs.Workflow.Provenance
/-
The configuration that a request keeps from before.

A request is opened with the stored form of the flag in force.  By way of the
workflow only, that flag came of a document that validated, so its stored form can
be proposed again unless one of its dates lies beyond the years of four digits.
-/

namespace FlagGovernance

/-- What an operation proposes for a flag, if it opens a request. -/
def Operation.proposal? : Operation → Option Proposal
  | .create p .. => some p
  | _ => none

namespace Sample

/-- A date just before the year 10000, west of Greenwich. -/
def edgeDocument : Json :=
  .object [("defaultRule", .object [("variation", .string "on")]),
    ("experimentation", .object [("end", .string "9999-12-31T23:59:59-01:00")]),
    ("variations", .object [("on", .bool true)])]

end Sample

namespace Governance

namespace Opening

variable {start : Governance} {ops : List Operation} {id : Uuid}

theorem exists_proposal (opening : start.Opening ops id) :
    ∃ op ∈ ops, op.proposal? = some opening.proposal := by
  obtain ⟨before, proposal, author, stamp, event, later, rfl, _⟩ := opening
  exact ⟨_, List.mem_append_right _ List.mem_cons_self, rfl⟩

theorem mem_of_before (opening : start.Opening ops id) {op : Operation}
    (hmem : op ∈ opening.before) : op ∈ ops := by
  rw [opening.split]
  exact List.mem_append_left _ hmem

/-- What the request keeps is the stored form of the flag in force before it. -/
theorem exists_flag (opening : start.Opening ops id) {doc : Json}
    (hdoc : opening.request.currentConfig = some doc) :
    ∃ flag, (start.run opening.before).entryAt opening.key = some flag ∧
      doc = flag.config.toDocument := by
  rw [opening.request_eq.1] at hdoc
  obtain ⟨flag, hfound, rfl⟩ := Option.map_eq_some_iff.1
    (show opening.found.map (fun f => f.config.toDocument) = some doc from hdoc)
  refine ⟨flag, ?_, rfl⟩
  rw [found, Store.currentFlag] at hfound
  split at hfound
  · exact hfound
  · contradiction

end Opening

/-- A request that a run has opened proposes what an operation of the run did. -/
theorem run_proposes (sink : AuditSink) (relay : RelaySignal) (policy : StalePolicy)
    {ops : List Operation} (hgoverned : ∀ op ∈ ops, op.governed = true) {id : Uuid}
    {request : ChangeRequest}
    (hrequest : ((start sink relay policy).run ops).store.request? id = some request) :
    ∃ op ∈ ops, ∃ p, op.proposal? = some p ∧ request.proposedConfig = p.proposedConfig := by
  obtain ⟨opening⟩ := exists_opening
    (fun op hmem => Operation.kind_ne_requestStore (hgoverned op hmem)) rfl hrequest
  obtain ⟨op, hmem, hproposal⟩ := opening.exists_proposal
  obtain ⟨_, _, _, _, rfl⟩ := opening.advances hrequest
  rw [opening.request_eq.1]
  exact ⟨op, hmem, _, hproposal, rfl⟩

/-- A flag that a run has left is the configuration of a document that an operation
of the run proposed. -/
theorem run_flag_proposed (sink : AuditSink) (relay : RelaySignal) (policy : StalePolicy)
    {ops : List Operation} (hgoverned : ∀ op ∈ ops, op.governed = true) {key : FlagId}
    {flag : StoredFlag}
    (hflag : ((start sink relay policy).run ops).entryAt key = some flag) :
    ∃ op ∈ ops, ∃ p, op.proposal? = some p ∧
      validateDocument p.proposedConfig = .ok flag.config := by
  obtain ⟨last, _, hmem, _, hconfig⟩ :=
    (run_accounts sink relay policy hgoverned key).exists_last hflag
  obtain ⟨id, hrequest⟩ := OrderedMap.mem_values_iff.1 (List.mem_filter.1 hmem).1
  obtain ⟨op, hop, p, hproposal, hsame⟩ := run_proposes sink relay policy hgoverned hrequest
  exact ⟨op, hop, p, hproposal, hsame ▸ hconfig⟩

/-- By way of the workflow only, the configuration that a request keeps is the
stored form of the flag that was in force when the request was opened.  Proposed
again it validates, as the configuration of that flag, just when the dates of the
flag have plain years. -/
theorem snapshot_restored_iff (sink : AuditSink) (relay : RelaySignal) (policy : StalePolicy)
    {ops : List Operation} (hgoverned : ∀ op ∈ ops, op.governed = true)
    (hproposals : ∀ op ∈ ops, ∀ p, op.proposal? = some p → p.proposedConfig.WellFormed)
    {id : Uuid} {request : ChangeRequest}
    (hrequest : ((start sink relay policy).run ops).store.request? id = some request)
    {doc : Json} (hdoc : request.currentConfig = some doc) :
    ∃ (opening : (start sink relay policy).Opening ops id) (flag : StoredFlag),
      ((start sink relay policy).run opening.before).entryAt opening.key = some flag ∧
      doc = flag.config.toDocument ∧
      AnswersIf (validateDocument doc) (∀ date ∈ flag.config.dates, date.HasPlainYear)
        flag.config := by
  obtain ⟨opening⟩ := exists_opening
    (fun op hmem => Operation.kind_ne_requestStore (hgoverned op hmem)) rfl hrequest
  obtain ⟨_, _, _, _, rfl⟩ := opening.advances hrequest
  obtain ⟨flag, hflag, rfl⟩ := opening.exists_flag hdoc
  have hbefore : ∀ op ∈ opening.before, op.governed = true :=
    fun op hmem => hgoverned op (opening.mem_of_before hmem)
  obtain ⟨op, hop, p, hproposal, hconfig⟩ := run_flag_proposed sink relay policy hbefore hflag
  have hproposed := hproposals op (opening.mem_of_before hop) p hproposal
  exact ⟨opening, flag, hflag, rfl,
    FlagConfig.answersIf_validateDocument_of_document hproposed hconfig⟩

/-- The flag of a request over a ramp that starts in a leap second. -/
theorem ramped_snapshot_restored :
    let proposal := { Sample.proposal with proposedConfig := Sample.rampedDocument }
    let ops : List Operation :=
      [.create proposal Sample.actor (Sample.stamp 1) (Sample.stamp 2),
       .apply (.ofNat 1) Sample.actor Sample.moment (Sample.stamp 3),
       .create proposal Sample.actor (Sample.stamp 4) (Sample.stamp 5)]
    ∃ request doc, ∃ flag : StoredFlag,
      (Sample.governance.run ops).store.request? (.ofNat 4) = some request ∧
      request.currentConfig = some doc ∧ doc = flag.config.toDocument ∧
      validateDocument doc = .ok flag.config := by
  intro proposal ops
  have hsnapshot : (((Sample.governance.run ops).store.request? (.ofNat 4)).bind
      ChangeRequest.currentConfig).map (fun doc => fault? (validateDocument doc)) =
      some none := by decide +kernel
  obtain ⟨doc, hdoc, hanswer⟩ := Option.map_eq_some_iff.1 hsnapshot
  obtain ⟨request, hrequest, hcurrent⟩ := Option.bind_eq_some_iff.1 hdoc
  obtain ⟨config, hconfig⟩ := exists_ok_of_fault? hanswer
  have hproposals : ∀ op ∈ ops, ∀ p, op.proposal? = some p → p.proposedConfig.WellFormed := by
    have hproposed : ∀ p, some proposal = some p → p.proposedConfig.WellFormed := by
      intro p hp
      rw [← Option.some.inj hp]
      decide +kernel
    simp only [ops, List.forall_mem_cons, Operation.proposal?]
    exact ⟨hproposed, nofun, hproposed, List.forall_mem_nil _⟩
  obtain ⟨_, flag, _, hstored, hanswers⟩ := snapshot_restored_iff (.log (.empty 100)) .answering
    .rejectStale (by decide) hproposals hrequest hcurrent
  obtain ⟨_, rfl⟩ := (hanswers config).1 hconfig
  exact ⟨request, doc, flag, hrequest, hcurrent, hstored, hconfig⟩

/-- A date of the year 9999 that lies in the year 10000 of universal time is
accepted and applied, and cannot be proposed again from the snapshot. -/
theorem far_snapshot_refused :
    let proposal := { Sample.proposal with proposedConfig := Sample.edgeDocument }
    let ops : List Operation :=
      [.create proposal Sample.actor (Sample.stamp 1) (Sample.stamp 2),
       .apply (.ofNat 1) Sample.actor Sample.moment (Sample.stamp 3),
       .create proposal Sample.actor (Sample.stamp 4) (Sample.stamp 5)]
    (∀ op ∈ ops, op.governed = true) ∧
    ∃ request doc, (Sample.governance.run ops).store.request? (.ofNat 4) = some request ∧
      request.currentConfig = some doc ∧
      validateDocument doc =
        .error ⟨"experimentation.end", .invalidDate "+10000-01-01T00:59:59Z"⟩ := by
  intro proposal ops
  have hsnapshot : (((Sample.governance.run ops).store.request? (.ofNat 4)).bind
      ChangeRequest.currentConfig).bind (fun doc => fault? (validateDocument doc)) =
      some ⟨"experimentation.end", .invalidDate "+10000-01-01T00:59:59Z"⟩ := by decide +kernel
  obtain ⟨doc, hdoc, hfault⟩ := Option.bind_eq_some_iff.1 hsnapshot
  obtain ⟨request, hrequest, hcurrent⟩ := Option.bind_eq_some_iff.1 hdoc
  exact ⟨by decide, request, doc, hrequest, hcurrent, eq_error_of_fault? hfault⟩

end Governance

end FlagGovernance
