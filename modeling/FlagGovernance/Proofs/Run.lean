import FlagGovernance.Proofs.Workflow.Steps
/-
Operations on a governance, one after another.

An operation goes through the workflow or straight to the store, or it queues a
fault, so that a run can meet one at any call.  `Performed` says all that an
operation can do; laws about runs are proved by cases on it.
-/

namespace FlagGovernance

/-- One thing asked of a governance. -/
inductive Operation
  | create (proposal : Proposal) (author : Actor) (stamp event : Stamp)
  | review (id : Uuid) (decision : Decision) (reviewer : Actor) (comment : Option String)
      (stamp event : Stamp)
  | apply (id : Uuid) (actor : Actor) (time : Instant) (event : Stamp)
  | cancel (id : Uuid) (actor : Actor) (time : Instant) (event : Stamp)
  | get (id : Uuid)
  | list (filter : RequestFilter)
  | countPending
  | flag (project key : String)
  | seedFlag (project key : String) (config : FlagConfig) (now : Instant)
  | putFlag (project key : String) (config : FlagConfig) (check : RevisionCheck) (now : Instant)
  | ensureProject (project : String)
  | renameFlag (project source target : String) (now : Instant)
  | insertRequest (request : ChangeRequest)
  | recordReview (review : Review) (status : Option Status)
  | transition (id : Uuid) (allowed : List Status) (target : Status) (now : Instant)
  | commitApply (id : Uuid) (commit : ApplyCommit)
  /-- The next call of the name is answered with the error. -/
  | injectFault (call : StoreCall) (error : StoreError)

/-- Where an operation goes. -/
inductive OperationKind
  | workflow
  | question
  | flagStore
  | rename
  | requestStore
  | fault
deriving DecidableEq, Repr

def Operation.kind : Operation → OperationKind
  | create .. | review .. | apply .. | cancel .. => .workflow
  | get .. | list .. | countPending .. | flag .. => .question
  | seedFlag .. | putFlag .. | ensureProject .. => .flagStore
  | renameFlag .. => .rename
  | insertRequest .. | recordReview .. | transition .. | commitApply .. => .requestStore
  | injectFault .. => .fault

/-- What an operation answers. -/
inductive Answer
  | request (request : ChangeRequest)
  | reviewed (outcome : ReviewOutcome)
  | applied (change : AppliedChange)
  | detail (detail : RequestDetail)
  | requests (requests : List ChangeRequest)
  | count (number : Nat)
  | flag (flag : Option StoredFlag)
  | stored (flag : StoredFlag)
  | project (created : Bool)
  | done

/-- The entry that an operation wrote, by its answer. -/
def Answer.written? : Answer → Option StoredFlag
  | .applied change => change.flag
  | .stored entry => some entry
  | _ => none

/-- Why an operation is refused, by the workflow or by the store itself. -/
inductive OperationError
  | workflow (cause : WorkflowError)
  | store (cause : StoreError)
deriving DecidableEq, Repr

namespace Governance

variable {α ε : Type}

/-- An operation straight on the store; queued faults stay queued. -/
def onStore (g : Governance) (step : Store → Store.Step α) : Except StoreError α × Governance :=
  ((step g.store).1, g.withStore (step g.store).2)

/-- An answer or error in the form common to all operations. -/
def told (refusal : ε → OperationError) (answer : α → Answer) :
    Except ε α × Governance → Except OperationError Answer × Governance
  | (.ok a, g) => (.ok (answer a), g)
  | (.error e, g) => (.error (refusal e), g)

def perform (g : Governance) : Operation → Except OperationError Answer × Governance
  | .create proposal author stamp event =>
    told .workflow .request (g.create proposal author stamp event)
  | .review id decision reviewer comment stamp event =>
    told .workflow .reviewed (g.review id decision reviewer comment stamp event)
  | .apply id actor time event => told .workflow .applied (g.apply id actor time event)
  | .cancel id actor time event => told .workflow .request (g.cancel id actor time event)
  | .get id => told .workflow .detail (g.get id)
  | .list filter => told .workflow .requests (g.list filter)
  | .countPending => told .workflow .count g.countPending
  | .flag project key => told .workflow .flag (g.flag project key)
  | .seedFlag project key config now =>
    told .store .stored (g.onStore (fun s => s.seedFlag project key config now))
  | .putFlag project key config check now =>
    told .store .stored (g.onStore (fun s => s.putFlag project key config check now))
  | .ensureProject project =>
    told .store .project (g.onStore (fun s => s.ensureProject project))
  | .renameFlag project source target now =>
    told .store .stored (g.onStore (fun s => s.renameFlag project source target now))
  | .insertRequest request =>
    told .store (fun _ => .done) (g.onStore (fun s => s.insertRequest request))
  | .recordReview review status =>
    told .store .request (g.onStore (fun s => s.recordReview review status))
  | .transition id allowed target now =>
    told .store .request (g.onStore (fun s => s.transition id allowed target now))
  | .commitApply id commit =>
    told .store .applied (g.onStore (fun s => s.commitApply id commit))
  | .injectFault call error => (.ok .done, { g with faults := g.faults ++ [(call, error)] })

/-- The governance after an operation. -/
def after (g : Governance) (op : Operation) : Governance := (g.perform op).2

/-- The operation is not refused. -/
def Answers (g : Governance) (op : Operation) : Prop := ∃ answer, (g.perform op).1 = .ok answer

/-- The governance after a run. -/
def run (g : Governance) (ops : List Operation) : Governance := ops.foldl after g

@[simp] theorem run_nil (g : Governance) : g.run [] = g := rfl

@[simp] theorem run_cons (g : Governance) (op : Operation) (rest : List Operation) :
    g.run (op :: rest) = (g.after op).run rest := rfl

theorem run_append (g : Governance) (ops more : List Operation) :
    g.run (ops ++ more) = (g.run ops).run more :=
  List.foldl_append

/-- What every operation of a run keeps holds after the run. -/
theorem run_keeps {P : Governance → Prop} {ops : List Operation}
    (hstep : ∀ op ∈ ops, ∀ g, P g → P (g.after op)) {g : Governance} (hstart : P g) :
    P (g.run ops) := by
  apply List.foldlRecOn ops after hstart
  intro g hkept op hmem
  exact hstep op hmem g hkept

/-- All that an operation can do: its answer and the governance after it. -/
inductive Performed (g : Governance) :
    Operation → Except OperationError Answer → Governance → Prop
  | refused {op : Operation} {g' : Governance} (error : OperationError) (hsame : g.Unmoved g') :
      Performed g op (.error error) g'
  | answered {op : Operation} {g' : Governance} (answer : Answer) (hkind : op.kind = .question)
      (hsilent : answer.written? = none) (hsame : g.Unmoved g') : Performed g op (.ok answer) g'
  | created (p : Proposal) (author : Actor) (stamp event : Stamp) (hcheck : p.check = .ok ())
      (hfree : g.store.request? stamp.id = none) (request : ChangeRequest)
      (hopened : request = p.opened author stamp (g.store.currentFlag p)) :
      Performed g (.create p author stamp event) (.ok (.request request))
        ((g.withStore (g.store.withRequest stamp.id request)).emit
          (createdEvent event author request))
  | reviewed (id : Uuid) (decision : Decision) (reviewer : Actor) (comment : Option String)
      (stamp event : Stamp) (request : ChangeRequest)
      (hrequest : g.store.request? id = some request) (hpending : request.status = .pending)
      (review : Review) (hreview : review = Review.given id decision reviewer comment stamp)
      (updated : ChangeRequest)
      (hupdated : updated = request.reviewed review decision.resultingStatus) :
      Performed g (.review id decision reviewer comment stamp event)
        (.ok (.reviewed ⟨updated, review⟩))
        ((g.withStore ((g.store.withRequest id updated).withReview review)).emit
          (reviewedEvent event updated review))
  | applied (id : Uuid) (actor : Actor) (time : Instant) (event : Stamp)
      (request : ChangeRequest) (flag : Option FlagWrite)
      (hrequest : g.store.request? id = some request) (hstatus : request.status.canApply = true)
      (hflag : flagWrite g.policy request = .ok flag)
      (hverify : ∀ w ∈ flag, w.check.verify (g.store.flags.find? w.id) = .ok ())
      (change : AppliedChange)
      (hchange : change = g.store.appliedChange request (applyCommit flag actor time)) :
      Performed g (.apply id actor time event) (.ok (.applied change))
        ((g.withStore ((g.store.withFlagWrite flag time).withRequest id
          (request.applied actor time))).announce event actor change)
  | cancelled (id : Uuid) (actor : Actor) (time : Instant) (event : Stamp)
      (request : ChangeRequest) (hrequest : g.store.request? id = some request)
      (hopen : request.status.isTerminal = false) (updated : ChangeRequest)
      (hupdated : updated = request.moved .cancelled time) :
      Performed g (.cancel id actor time event) (.ok (.request updated))
        ((g.withStore (g.store.withRequest id updated)).emit
          (cancelledEvent event actor request.status updated))
  | seeded (project key : String) (config : FlagConfig) (now : Instant)
      (write : FlagWrite) (hwrite : write = ⟨project, key, config, .any⟩) :
      Performed g (.seedFlag project key config now)
        (.ok (.stored (write.entry (g.store.flags.find? write.id) now)))
        (g.withStore ((g.store.withProject project).written write now))
  | put (project key : String) (config : FlagConfig) (check : RevisionCheck) (now : Instant)
      (hproject : g.store.projects.contains project = true)
      (write : FlagWrite) (hwrite : write = ⟨project, key, config, check⟩)
      (hverify : check.verify (g.store.flags.find? write.id) = .ok ()) :
      Performed g (.putFlag project key config check now)
        (.ok (.stored (write.entry (g.store.flags.find? write.id) now)))
        (g.withStore (g.store.written write now))
  | ensured (project : String) :
      Performed g (.ensureProject project)
        (.ok (.project (!g.store.projects.contains project)))
        (g.withStore (g.store.withProject project))
  | renamed (project source target : String) (now : Instant) (flag : StoredFlag)
      (htarget : g.store.flags.find? ⟨project, target⟩ = none)
      (hsource : g.store.flags.find? ⟨project, source⟩ = some flag) :
      Performed g (.renameFlag project source target now) (.ok (.stored (flag.renamed target now)))
        (g.withStore (g.store.withRenamed ⟨project, source⟩ ⟨project, target⟩ flag now))
  | inserted (request : ChangeRequest) (hfree : g.store.request? request.id = none) :
      Performed g (.insertRequest request) (.ok .done)
        (g.withStore (g.store.withRequest request.id request))
  | recorded (review : Review) (status : Option Status) (request : ChangeRequest)
      (hrequest : g.store.request? review.requestId = some request)
      (hopen : request.status.isTerminal = false) :
      Performed g (.recordReview review status) (.ok (.request (request.reviewed review status)))
        (g.withStore ((g.store.withRequest review.requestId
          (request.reviewed review status)).withReview review))
  | transitioned (id : Uuid) (allowed : List Status) (target : Status) (now : Instant)
      (request : ChangeRequest) (hrequest : g.store.request? id = some request)
      (hallowed : request.status ∈ allowed) :
      Performed g (.transition id allowed target now) (.ok (.request (request.moved target now)))
        (g.withStore (g.store.withRequest id (request.moved target now)))
  | committed (id : Uuid) (commit : ApplyCommit) (request : ChangeRequest)
      (hrequest : g.store.request? id = some request)
      (hallowed : request.status ∈ commit.allowedFrom)
      (hverify : ∀ w ∈ commit.flag, w.check.verify (g.store.flags.find? w.id) = .ok ()) :
      Performed g (.commitApply id commit) (.ok (.applied (g.store.appliedChange request commit)))
        (g.withStore ((g.store.withFlagWrite commit.flag commit.appliedAt).withRequest id
          (request.applied commit.appliedBy commit.appliedAt)))
  | injected (call : StoreCall) (error : StoreError) :
      Performed g (.injectFault call error) (.ok .done)
        { g with faults := g.faults ++ [(call, error)] }

theorem Performed.of_told {g : Governance} {op : Operation} {refusal : ε → OperationError}
    {answer : α → Answer} {result : Except ε α × Governance}
    (hrefused : ∀ e, result.1 = .error e → g.Unmoved result.2)
    (hdone : ∀ a, result.1 = .ok a → g.Performed op (.ok (answer a)) result.2) :
    g.Performed op (told refusal answer result).1 (told refusal answer result).2 := by
  obtain ⟨outcome, g'⟩ := result
  cases outcome with
  | error e => exact .refused (refusal e) (hrefused e rfl)
  | ok a => exact hdone a rfl

/-- A refusal of the store itself changes nothing at all. -/
theorem onStore_of_refused {g : Governance} {step : Store → Store.Step α} {e : StoreError}
    (hstep : step g.store = (.error e, g.store)) : g.onStore step = (.error e, g) := by
  rw [onStore, hstep]
  rfl

theorem onStore_of_done {g : Governance} {step : Store → Store.Step α} {a : α} {store : Store}
    (hstep : step g.store = (.ok a, store)) :
    g.onStore step = (.ok a, g.withStore store) := by
  rw [onStore, hstep]

/-- Every operation does one of the things listed. -/
theorem performed (g : Governance) (op : Operation) :
    g.Performed op (g.perform op).1 (g.after op) := by
  cases op with
  | create p author stamp event =>
      rcases g.create_cases p author stamp event with ⟨e, g', hcreate, hsame⟩ |
        ⟨hcheck, hfree, hcreate⟩
      · rw [after, perform, hcreate]
        exact .refused _ hsame
      · rw [after, perform, hcreate]
        exact .created p author stamp event hcheck hfree _ rfl
  | review id decision reviewer comment stamp event =>
      rcases g.review_cases id decision reviewer comment stamp event with
        ⟨e, g', hreview, hsame⟩ | ⟨request, hrequest, hpending, hreview⟩
      · rw [after, perform, hreview]
        exact .refused _ hsame
      · rw [after, perform, hreview]
        exact .reviewed id decision reviewer comment stamp event request hrequest hpending
          _ rfl _ rfl
  | apply id actor time event =>
      rcases g.apply_cases id actor time event with ⟨e, g', happly, hsame⟩ |
        ⟨request, flag, hrequest, hstatus, hflag, hverify, happly⟩
      · rw [after, perform, happly]
        exact .refused _ hsame
      · rw [after, perform, happly]
        exact .applied id actor time event request flag hrequest hstatus hflag hverify _ rfl
  | cancel id actor time event =>
      rcases g.cancel_cases id actor time event with ⟨e, g', hcancel, hsame⟩ |
        ⟨request, hrequest, hopen, hcancel⟩
      · rw [after, perform, hcancel]
        exact .refused _ hsame
      · rw [after, perform, hcancel]
        exact .cancelled id actor time event request hrequest hopen _ rfl
  | get id =>
      have hsame := g.get_unmoved id
      exact .of_told (fun _ _ => hsame) (fun a _ => .answered (.detail a) rfl rfl hsame)
  | list filter =>
      have hsame := g.inContext_read_unmoved "listing change requests" .listRequests
        (fun s => s.listRequests filter)
      exact .of_told (fun _ _ => hsame) (fun a _ => .answered (.requests a) rfl rfl hsame)
  | countPending =>
      have hsame := g.inContext_read_unmoved "counting pending change requests" .countPending
        Store.countPending
      exact .of_told (fun _ _ => hsame) (fun a _ => .answered (.count a) rfl rfl hsame)
  | flag project key =>
      have hsame := g.inContext_read_unmoved "loading flag" .getFlag
        (fun s => s.flag? project key)
      exact .of_told (fun _ _ => hsame) (fun a _ => .answered (.flag a) rfl rfl hsame)
  | seedFlag project key config now =>
      rw [after, perform, onStore_of_done (g.store.seedFlag_eq project key config now)]
      exact .seeded project key config now _ rfl
  | putFlag project key config check now =>
      rcases g.store.putFlag_cases project key config check now with ⟨e, hput⟩ |
        ⟨hverify, hproject, hput⟩
      · rw [after, perform, onStore_of_refused hput]
        exact .refused _ (.refl g)
      · rw [after, perform, onStore_of_done hput]
        exact .put project key config check now hproject _ rfl hverify
  | ensureProject project =>
      rw [after, perform, onStore_of_done (g.store.ensureProject_eq project)]
      exact .ensured project
  | renameFlag project source target now =>
      rcases g.store.renameFlag_cases project source target now with ⟨e, hrename⟩ |
        ⟨flag, htarget, hsource, hrename⟩
      · rw [after, perform, onStore_of_refused hrename]
        exact .refused _ (.refl g)
      · rw [after, perform, onStore_of_done hrename]
        exact .renamed project source target now flag htarget hsource
  | insertRequest request =>
      rcases g.store.insertRequest_cases request with ⟨e, hinsert⟩ | ⟨hfree, hinsert⟩
      · rw [after, perform, onStore_of_refused hinsert]
        exact .refused _ (.refl g)
      · rw [after, perform, onStore_of_done hinsert]
        exact .inserted request hfree
  | recordReview review status =>
      rcases g.store.recordReview_cases review status with ⟨e, hrecord⟩ |
        ⟨request, hrequest, hopen, hrecord⟩
      · rw [after, perform, onStore_of_refused hrecord]
        exact .refused _ (.refl g)
      · rw [after, perform, onStore_of_done hrecord]
        exact .recorded review status request hrequest hopen
  | transition id allowed target now =>
      rcases g.store.transition_cases id allowed target now with ⟨e, hmove⟩ |
        ⟨request, hrequest, hallowed, hmove⟩
      · rw [after, perform, onStore_of_refused hmove]
        exact .refused _ (.refl g)
      · rw [after, perform, onStore_of_done hmove]
        exact .transitioned id allowed target now request hrequest hallowed
  | commitApply id commit =>
      rcases g.store.commitApply_cases id commit with ⟨e, hcommit⟩ |
        ⟨request, hrequest, hallowed, hverify, hcommit⟩
      · rw [after, perform, onStore_of_refused hcommit]
        exact .refused _ (.refl g)
      · rw [after, perform, onStore_of_done hcommit]
        exact .committed id commit request hrequest hallowed hverify
  | injectFault call error => exact .injected call error

theorem after_policy (g : Governance) (op : Operation) :
    (g.after op).policy = g.policy := by
  have hperformed := g.performed op
  generalize (g.perform op).1 = outcome, g.after op = g' at hperformed
  cases hperformed with
  | refused _ hsame => exact hsame.policy_eq
  | answered _ _ _ hsame => exact hsame.policy_eq
  | applied => exact announce_policy _ _ _ _
  | created | reviewed | cancelled | inserted | recorded | transitioned | committed | seeded
  | put | ensured | renamed | injected => rfl

theorem performed_as {g : Governance} {op : Operation} {outcome : Except OperationError Answer}
    (houtcome : (g.perform op).1 = outcome) : g.Performed op outcome (g.after op) :=
  houtcome ▸ g.performed op

theorem performed_of_eq {g g' : Governance} {op : Operation}
    {outcome : Except OperationError Answer} (hperform : g.perform op = (outcome, g')) :
    g.Performed op outcome g' := by
  obtain rfl : g.after op = g' := congrArg Prod.snd hperform
  exact performed_as (congrArg Prod.fst hperform)

/-- What an apply that succeeds has found, and what it tells. -/
theorem applied_of_ok {g : Governance} {id : Uuid} {actor : Actor} {time : Instant}
    {event : Stamp} {change : AppliedChange}
    (hanswer : (g.perform (.apply id actor time event)).1 = .ok (.applied change)) :
    ∃ request flag, g.store.request? id = some request ∧ request.status.canApply = true ∧
      flagWrite g.policy request = .ok flag ∧
      (∀ w ∈ flag, w.check.verify (g.store.flags.find? w.id) = .ok ()) ∧
      change = g.store.appliedChange request (applyCommit flag actor time) := by
  have hperformed := performed_as hanswer
  generalize g.after (.apply id actor time event) = g' at hperformed
  cases hperformed with
  | answered _ hkind => contradiction
  | applied _ _ _ _ request flag hrequest hstatus hflag hverify _ hchange =>
      exact ⟨request, flag, hrequest, hstatus, hflag, hverify, hchange⟩

theorem after_unmoved_of_error {g : Governance} {op : Operation} {e : OperationError}
    (hrefused : (g.perform op).1 = .error e) : g.Unmoved (g.after op) := by
  cases performed_as hrefused with
  | refused _ hsame => exact hsame

end Governance

/- Values for closed runs. -/
namespace Sample

def moment : Instant := ⟨⟨2024, 1, 1, by decide⟩, 0, 0, by decide⟩

def stamp (n : Nat) : Stamp := ⟨moment, .ofNat n⟩

def actor : Actor := .user "ada"

/-- A document that turns a flag on. -/
def document : Json :=
  .object [("defaultRule", .object [("variation", .string "on")]),
    ("variations", .object [("on", .bool true)])]

def proposal : Proposal := ⟨"turn on", none, .flag, "web", "checkout", document⟩

/-- A new governance with a log and a relay that rejects stale proposals. -/
def governance : Governance := .start (.log (.empty 100)) .answering .rejectStale

end Sample

end FlagGovernance
