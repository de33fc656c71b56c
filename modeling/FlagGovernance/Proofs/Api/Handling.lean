import FlagGovernance.Api.Service
import FlagGovernance.Proofs.Atomicity
import FlagGovernance.Proofs.Audit.Effects
import FlagGovernance.Proofs.Refusal
/-
What answering a request does.

Where no faults are queued, answering a request either leaves the service as it is, or it
is a POST to the route of an action, the governance performs that action, its counter
goes up by one and the answer tells success.
-/

namespace FlagGovernance

/-- The label under which an action is counted. -/
def AuditAction.counter : AuditAction → String
  | .created => "created"
  | .reviewed => "reviewed"
  | .applied => "applied"
  | .cancelled => "cancelled"

namespace Api

/-- The status of the response is one of the two hundreds. -/
def Response.isSuccess (r : Response) : Bool := 200 ≤ r.status && r.status < 300

theorem Response.isSuccess_ofFailure (f : Failure) : (ofFailure f).isSuccess = false := by
  cases f with
  | workflow cause => cases cause <;> rfl
  | badRequest | notFound | internal => rfl

theorem Refusal.isSuccess_response (r : Refusal) : r.response.isSuccess = false := by
  cases r with
  | body fault => cases fault <;> rfl
  | path | parameters | contentType => rfl

/-- The action that a POST to the route takes. -/
def Route.action? : Route → Option AuditAction
  | .requests => some .created
  | .review _ => some .reviewed
  | .apply _ => some .applied
  | .cancel _ => some .cancelled
  | _ => none

namespace Request

def route? (r : Request) : Option Route := Route.ofSegments? r.target.segments

/-- The action that is asked for: the request is a POST to its route. -/
def action? (r : Request) : Option AuditAction :=
  match r.method with
  | .post => r.route?.bind Route.action?
  | _ => none

/-- The change that a POST to the route asks of the governance, if it can be read. -/
def changeAt (r : Request) (fresh : Fresh) : Route → Option Operation
  | .requests => do
    let proposal ← (r.jsonBody proposalBody).toOption
    return .create proposal r.actor ⟨fresh.time, fresh.requestId⟩ fresh.event
  | .review id => do
    let id ← (pathId id).toOption
    let (word, comment) ← (r.jsonBody reviewBody).toOption
    let decision ← Decision.ofName? word
    return .review id decision r.actor comment ⟨fresh.time, fresh.reviewId⟩ fresh.event
  | .apply id => do
    return .apply (← (pathId id).toOption) r.actor fresh.time fresh.event
  | .cancel id => do
    return .cancel (← (pathId id).toOption) r.actor fresh.time fresh.event
  | _ => none

/-- The change that the request asks of the governance. -/
def change? (r : Request) (fresh : Fresh) : Option Operation :=
  match r.method with
  | .post => r.route?.bind (r.changeAt fresh)
  | _ => none

end Request

namespace Service

/-- All that answering a request can do. -/
inductive Handles (s : Service) (r : Request) (fresh : Fresh) : Response → Service → Prop
  /-- Whatever it answers, it tells of no action, and a change that it asks for is
  refused. -/
  | kept (response : Response) (hquiet : response.isSuccess = true → r.action? = none)
      (hrefused : ∀ op, r.change? fresh = some op → ∃ e, (s.governance.perform op).1 = .error e) :
      Handles s r fresh response s
  /-- The change that it asks for is made, counted and told as a success. -/
  | committed (response : Response) (op : Operation) (action : AuditAction) (answer : Answer)
      (hsuccess : response.isSuccess = true) (haction : r.action? = some action)
      (hchange : r.change? fresh = some op) (hdeed : op.deed?.map Deed.action = some action)
      (hanswer : (s.governance.perform op).1 = .ok answer) :
      Handles s r fresh response
        ⟨s.governance.after op, s.metrics.record action.counter⟩

variable {s : Service} {r : Request} {fresh : Fresh}

theorem Handles.of_failed {response : Response} (hfailed : response.isSuccess = false)
    (hchange : r.change? fresh = none) : Handles s r fresh response s := by
  refine .kept response (fun hsuccess => ?_) (fun op hop => ?_)
  · rw [hfailed] at hsuccess
    contradiction
  · rw [hchange] at hop
    contradiction

theorem Handles.of_question {handled : Handled} (hkept : handled.2 = s)
    (haction : r.action? = none) (hchange : r.change? fresh = none) :
    Handles s r fresh handled.1 handled.2 := by
  rw [hkept]
  refine .kept handled.1 (fun _ => haction) (fun op hop => ?_)
  rw [hchange] at hop
  contradiction

/-- What a request does once a part of it is read; one that cannot be read is refused. -/
theorem Handles.of_bind {α : Type} {part : Except Refusal α}
    {rest : α → Except Refusal Handled} {change : α → Option Operation}
    (hchange : r.change? fresh = part.toOption.bind change)
    (hrest : ∀ a, r.change? fresh = change a →
      Handles s r fresh (s.settled (some (rest a))).1 (s.settled (some (rest a))).2) :
    Handles s r fresh (s.settled (some (part >>= rest))).1
      (s.settled (some (part >>= rest))).2 := by
  cases part with
  | error refusal => exact .of_failed refusal.isSuccess_response hchange
  | ok a => exact hrest a hchange

/-- The response to a change that the governance performs. -/
theorem Handles.of_committed (hfaults : s.governance.faults = []) {α : Type} {op : Operation}
    {action : AuditAction} (haction : r.action? = some action)
    (hchange : r.change? fresh = some op) (hdeed : op.deed?.map Deed.action = some action)
    {answer : α → Answer} {outcome : Governance.Outcome α}
    (hperform : s.governance.perform op = Governance.told .workflow answer outcome)
    {status : Nat} (hstatus : (200 ≤ status && status < 300) = true) (encode : α → Json) :
    Handles s r fresh (s.committed action.counter status encode outcome).1
      (s.committed action.counter status encode outcome).2 := by
  rcases outcome with ⟨e | a, g⟩
  · have hrefused : (s.governance.perform op).1 = .error (.workflow e) :=
      congrArg Prod.fst hperform
    have hsame : g = s.governance := by
      rw [← (Governance.after_unmoved_of_error hrefused).eq_of_no_faults hfaults]
      exact (congrArg Prod.snd hperform).symm
    subst hsame
    refine .kept _ (fun hsuccess => ?_) (fun op' hop' => ?_)
    · rw [Service.committed, Response.isSuccess_ofFailure] at hsuccess
      contradiction
    · rw [hchange] at hop'
      exact ⟨_, Option.some.inj hop' ▸ hrefused⟩
  · have hafter : g = s.governance.after op := (congrArg Prod.snd hperform).symm
    subst hafter
    exact .committed _ op action (answer a) hstatus haction hchange hdeed
      (congrArg Prod.fst hperform)

/-- A question leaves the service as it is. -/
theorem told_keeps (hfaults : s.governance.faults = []) {α : Type} {outcome : Governance.Outcome α}
    (hsame : s.governance.Unmoved outcome.2) (respond : α → Response) :
    (s.told respond outcome).2 = s := by
  have hkept := hsame.eq_of_no_faults hfaults
  rcases outcome with ⟨e | a, g⟩
  · exact congrArg (fun governance => ({ s with governance } : Service)) hkept
  · exact congrArg (fun governance => ({ s with governance } : Service)) hkept

theorem list_keeps (hfaults : s.governance.faults = []) (status search : Option String) :
    (s.list status search).2 = s := by
  rw [list]
  split
  · exact told_keeps hfaults (s.governance.inContext_read_unmoved _ _ _) _
  · rfl

theorem get_keeps (hfaults : s.governance.faults = []) {route : Route} {handled : Handled}
    (hget : s.get r route = some (.ok handled)) : handled.2 = s := by
  cases route with
  | health | metrics =>
      rw [← Except.ok.inj (Option.some.inj hget)]
  | requests =>
      obtain ⟨status, _, hrest⟩ := bind_eq_ok_iff.1 (Option.some.inj hget)
      obtain ⟨search, _, hsame⟩ := bind_eq_ok_iff.1 hrest
      rw [← Except.ok.inj hsame]
      exact list_keeps hfaults status search
  | pendingCount =>
      rw [← Except.ok.inj (Option.some.inj hget)]
      exact told_keeps hfaults (s.governance.inContext_read_unmoved _ _ _) _
  | request id =>
      obtain ⟨id, _, hsame⟩ := bind_eq_ok_iff.1 (Option.some.inj hget)
      rw [← Except.ok.inj hsame]
      exact told_keeps hfaults (s.governance.get_unmoved id) _
  | flag project key =>
      obtain ⟨project, _, hrest⟩ := bind_eq_ok_iff.1 (Option.some.inj hget)
      obtain ⟨key, _, hsame⟩ := bind_eq_ok_iff.1 hrest
      rw [← Except.ok.inj hsame]
      exact told_keeps hfaults (s.governance.inContext_read_unmoved _ _ _) _
  | audit =>
      obtain ⟨limit, _, hrest⟩ := bind_eq_ok_iff.1 (Option.some.inj hget)
      obtain ⟨resourceId, _, hsame⟩ := bind_eq_ok_iff.1 hrest
      rw [← Except.ok.inj hsame]
  | validateConfig | validateQuery | review | apply | cancel => contradiction

theorem settled_get_keeps (hfaults : s.governance.faults = []) (route : Route) :
    (s.settled (s.get r route)).2 = s := by
  cases hget : s.get r route with
  | none => rfl
  | some outcome =>
      cases outcome with
      | error refusal => rfl
      | ok handled => exact get_keeps hfaults hget

/-- Only a POST changes the service. -/
theorem handle_keeps (hfaults : s.governance.faults = []) (hmethod : r.method ≠ .post)
    (fresh : Fresh) : (s.handle r fresh).2 = s := by
  rw [handle]
  cases Route.ofSegments? r.target.segments with
  | none => cases r.method <;> rfl
  | some route =>
      cases hmethod' : r.method with
      | get | head => exact settled_get_keeps hfaults route
      | post => contradiction
      | options | other => rfl

/-- A POST that is read asks for a change or checks a document. -/
theorem settled_post_handles (hfaults : s.governance.faults = []) {route : Route}
    (haction : r.action? = route.action?) (hchange : r.change? fresh = r.changeAt fresh route) :
    Handles s r fresh (s.settled (s.post r fresh route)).1
      (s.settled (s.post r fresh route)).2 := by
  cases route with
  | requests =>
      exact .of_bind hchange (fun proposal hchange =>
        .of_committed hfaults haction hchange rfl rfl rfl _)
  | review id =>
      refine .of_bind hchange (fun id hchange => .of_bind hchange (fun asked hchange => ?_))
      obtain ⟨word, comment⟩ := asked
      change Handles s r fresh (s.review id r.actor word comment fresh).1
        (s.review id r.actor word comment fresh).2
      rw [Service.review]
      dsimp only at hchange
      cases hword : Decision.ofName? word with
      | none =>
          rw [hword] at hchange
          exact .of_failed (Response.isSuccess_ofFailure _) hchange
      | some decision =>
          rw [hword] at hchange
          exact .of_committed hfaults haction hchange rfl rfl rfl _
  | apply id =>
      exact .of_bind hchange (fun id hchange =>
        .of_committed hfaults haction hchange rfl rfl rfl _)
  | cancel id =>
      exact .of_bind hchange (fun id hchange =>
        .of_committed hfaults haction hchange rfl rfl rfl _)
  | validateConfig =>
      exact .of_bind (hchange.trans (Option.bind_fun_none _).symm) (fun doc hchange =>
        .of_question rfl haction hchange)
  | validateQuery =>
      exact .of_bind (hchange.trans (Option.bind_fun_none _).symm) (fun text hchange =>
        .of_question rfl haction hchange)
  | health | pendingCount | request | flag | audit | metrics =>
      exact .of_failed rfl hchange

/-- Every request is answered in one of the two ways. -/
theorem handles (hfaults : s.governance.faults = []) (r : Request) (fresh : Fresh) :
    Handles s r fresh (s.handle r fresh).1 (s.handle r fresh).2 := by
  cases hmethod : r.method with
  | post =>
      cases hroute : r.route? with
      | none =>
          have hhandle : s.handle r fresh = (bare 404, s) := by
            rw [Request.route?] at hroute
            rw [handle, hmethod, hroute]
          have hchange : r.change? fresh = none := by rw [Request.change?, hmethod, hroute]; rfl
          rw [hhandle]
          exact .of_failed rfl hchange
      | some route =>
          have hhandle : s.handle r fresh = s.settled (s.post r fresh route) := by
            rw [Request.route?] at hroute
            rw [handle, hmethod, hroute]
          rw [hhandle]
          refine settled_post_handles hfaults ?_ ?_
          · rw [Request.action?, hmethod, hroute]
            rfl
          · rw [Request.change?, hmethod, hroute]
            rfl
  | get | head | options | other =>
      have haction : r.action? = none := by rw [Request.action?, hmethod]
      have hchange : r.change? fresh = none := by rw [Request.change?, hmethod]
      exact .of_question (handle_keeps hfaults (by rw [hmethod]; decide) fresh) haction hchange

end Service

end Api

end FlagGovernance
