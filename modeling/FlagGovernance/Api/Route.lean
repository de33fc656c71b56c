/-
What a path leads to, and which methods it takes.
-/

namespace FlagGovernance.Api

inductive Method
  | get
  | head
  | post
  | options
  | other
deriving DecidableEq, Repr

/-- The method of a name; names are told apart by case. -/
def Method.ofName : String → Method
  | "GET" => .get
  | "HEAD" => .head
  | "POST" => .post
  | "OPTIONS" => .options
  | _ => .other

/-- What can be asked for. Parts of the path that are values are kept as they are
written. -/
inductive Route
  | health
  | validateConfig
  | validateQuery
  | requests
  | pendingCount
  | request (id : String)
  | review (id : String)
  | apply (id : String)
  | cancel (id : String)
  | flag (project key : String)
  | audit
  | metrics
deriving DecidableEq, Repr

namespace Route

/-- The route of a path. A value at its end is not empty; one between slashes may
be. -/
def ofSegments? : List String → Option Route
  | ["v1", "health"] => some health
  | ["v1", "validate"] => some validateConfig
  | ["v1", "validate", "query"] => some validateQuery
  | ["v1", "change-requests"] => some requests
  | ["v1", "change-requests", "count"] => some pendingCount
  | ["v1", "change-requests", id] => unlessEmpty id (request id)
  | ["v1", "change-requests", id, "review"] => some (review id)
  | ["v1", "change-requests", id, "apply"] => some (apply id)
  | ["v1", "change-requests", id, "cancel"] => some (cancel id)
  | ["v1", "projects", project, "flags", key] => unlessEmpty key (flag project key)
  | ["v1", "audit"] => some audit
  | ["metrics"] => some metrics
  | _ => none
where
  unlessEmpty (last : String) (route : Route) : Option Route :=
    if last.isEmpty then none else some route

end Route

end FlagGovernance.Api
