import FlagGovernance.Store.Flag
import FlagGovernance.Change.Filter
/-
The store of projects, flags, change requests and reviews.

Every operation is one atomic step: it takes the store and gives an answer or a
refusal together with the store afterwards.
-/

namespace FlagGovernance

structure Store where
  projects : OrderedSet String
  flags : OrderedMap FlagId StoredFlag
  requests : OrderedMap Uuid ChangeRequest
  reviews : OrderedMap Uuid (List Review)
deriving Repr

/-- A flag write and what it expects to find. -/
structure FlagWrite where
  project : String
  key : String
  config : FlagConfig
  check : RevisionCheck
deriving Repr

/-- What an apply commits. -/
structure ApplyCommit where
  allowedFrom : List Status
  /-- Nothing for resources that are tracked but not written. -/
  flag : Option FlagWrite
  appliedBy : Actor
  appliedAt : Instant
deriving Repr

/-- What an apply did. -/
structure AppliedChange where
  request : ChangeRequest
  flag : Option StoredFlag
  /-- The entry that the write replaced. -/
  previous : Option StoredFlag
  projectCreated : Bool
deriving Repr

namespace Store

/-- The answer of an operation, and the store after it. -/
abbrev Step (α : Type) := Except StoreError α × Store

def empty : Store := ⟨∅, ∅, ∅, ∅⟩

instance : EmptyCollection Store := ⟨empty⟩

def flag? (s : Store) (project key : String) : Option StoredFlag :=
  s.flags.find? ⟨project, key⟩

/-- Writes a flag one revision on, if the write finds what it expects. The answer
tells the entry before and the entry after. -/
def writeFlag (s : Store) (write : FlagWrite) (now : Instant) :
    Step (Option StoredFlag × StoredFlag) :=
  let previous := s.flag? write.project write.key
  match write.check.verify previous with
  | .error e => (.error e, s)
  | .ok () =>
    let stored : StoredFlag :=
      { project := write.project, key := write.key, config := write.config,
        revision := (previous.map StoredFlag.revision).getD 0 + 1, updatedAt := now }
    (.ok (previous, stored),
      { s with flags := s.flags.insert ⟨write.project, write.key⟩ stored })

/-- Creates a project unless it is there, and tells whether it did. -/
def ensureProject (s : Store) (project : String) : Step Bool :=
  (.ok (!s.projects.contains project), { s with projects := s.projects.insert project () })

/-- Writes a flag without a review, creating its project. -/
def seedFlag (s : Store) (project key : String) (config : FlagConfig) (now : Instant) :
    Step StoredFlag :=
  let (_, s) := s.ensureProject project
  match s.writeFlag ⟨project, key, config, .any⟩ now with
  | (.ok (_, stored), s) => (.ok stored, s)
  | (.error e, s) => (.error e, s)

/-- Replaces a configuration; the project must be there. -/
def putFlag (s : Store) (project key : String) (config : FlagConfig) (check : RevisionCheck)
    (now : Instant) : Step StoredFlag :=
  if s.projects.contains project then
    match s.writeFlag ⟨project, key, config, check⟩ now with
    | (.ok (_, stored), s) => (.ok stored, s)
    | (.error e, s) => (.error e, s)
  else (.error (.notFound ("project " ++ project)), s)

def listProjects (s : Store) : List String := s.projects.keys

/-- The flags of a project, by key. -/
def listFlags (s : Store) (project : String) : List StoredFlag :=
  s.flags.values.filter (fun f => f.project == project)

def flagText (project key : String) : String := "flag " ++ project ++ "/" ++ key

/-- Moves a flag to a new key, one revision on. -/
def renameFlag (s : Store) (project source target : String) (now : Instant) : Step StoredFlag :=
  if s.flags.contains ⟨project, target⟩ then (.error (.conflict (flagText project target)), s)
  else
    match s.flag? project source with
    | none => (.error (.notFound (flagText project source)), s)
    | some flag =>
      let moved := { flag with key := target, revision := flag.revision + 1, updatedAt := now }
      (.ok moved,
        { s with flags := (s.flags.erase ⟨project, source⟩).insert ⟨project, target⟩ moved })

def requestText (id : Uuid) : String := "change request " ++ id.text

def insertRequest (s : Store) (request : ChangeRequest) : Step Unit :=
  if s.requests.contains request.id then (.error (.conflict (requestText request.id)), s)
  else (.ok (), { s with requests := s.requests.insert request.id request })

def request? (s : Store) (id : Uuid) : Option ChangeRequest := s.requests.find? id

/-- Newest first; of two of one moment the lesser id first. -/
def listedBefore (a b : ChangeRequest) : Bool :=
  match compare b.createdAt a.createdAt with
  | .lt => true
  | .gt => false
  | .eq => compare a.id b.id != .gt

/-- The requests that a filter accepts, newest first. -/
def listRequests (s : Store) (filter : RequestFilter) : List ChangeRequest :=
  (s.requests.values.filter filter.accepts).mergeSort listedBefore

/-- The reviews of a request, oldest first. -/
def listReviews (s : Store) (id : Uuid) : List Review := (s.reviews.find? id).getD []

def countPending (s : Store) : Nat :=
  s.requests.values.countP (fun r => r.status == .pending)

/-- Adds a review and moves its request to a status, if one is given. A request
that is applied or cancelled takes no more reviews. -/
def recordReview (s : Store) (review : Review) (status : Option Status) : Step ChangeRequest :=
  match s.request? review.requestId with
  | none => (.error (.notFound (requestText review.requestId)), s)
  | some request =>
    if request.status.isTerminal then (.error (.statusMismatch request.status), s)
    else
      let updated :=
        { request with status := status.getD request.status, updatedAt := review.createdAt }
      (.ok updated,
        { s with
          requests := s.requests.insert review.requestId updated
          reviews := s.reviews.insert review.requestId
            (s.listReviews review.requestId ++ [review]) })

/-- Moves a request to a status, if it is in one of those allowed. -/
def transition (s : Store) (id : Uuid) (allowedFrom : List Status) (target : Status)
    (now : Instant) : Step ChangeRequest :=
  match s.request? id with
  | none => (.error (.notFound (requestText id)), s)
  | some request =>
    if request.status ∈ allowedFrom then
      let updated := { request with status := target, updatedAt := now }
      (.ok updated, { s with requests := s.requests.insert id updated })
    else (.error (.statusMismatch request.status), s)

/-- The flag part of an apply: the project if needed, then the write. -/
def commitFlag (s : Store) (write : Option FlagWrite) (now : Instant) :
    Step (Option StoredFlag × Option StoredFlag × Bool) :=
  match write with
  | none => (.ok (none, none, false), s)
  | some write =>
    let created := !s.projects.contains write.project
    let (_, s) := s.ensureProject write.project
    match s.writeFlag write now with
    | (.ok (previous, stored), s) => (.ok (previous, some stored, created), s)
    | (.error e, s) => (.error e, s)

/-- Writes the flag of a request and marks it applied. Every check comes before
the first change. -/
def commitApply (s : Store) (id : Uuid) (commit : ApplyCommit) : Step AppliedChange :=
  match s.request? id with
  | none => (.error (.notFound (requestText id)), s)
  | some request =>
    if request.status ∉ commit.allowedFrom then (.error (.statusMismatch request.status), s)
    else
      let checked :=
        match commit.flag with
        | some write => write.check.verify (s.flag? write.project write.key)
        | none => .ok ()
      match checked with
      | .error e => (.error e, s)
      | .ok () =>
        match s.commitFlag commit.flag commit.appliedAt with
        | (.error e, s) => (.error e, s)
        | (.ok (previous, flag, created), s) =>
          match s.request? id with
          | none => (.error (.notFound (requestText id)), s)
          | some request =>
            let updated :=
              { request with
                status := .applied
                appliedAt := some commit.appliedAt
                appliedBy := some commit.appliedBy
                updatedAt := commit.appliedAt }
            (.ok ⟨updated, flag, previous, created⟩,
              { s with requests := s.requests.insert id updated })

end Store

end FlagGovernance
