import FlagGovernance.Audit.Log
import FlagGovernance.Store.Basic
import FlagGovernance.Workflow.Error
/-
The state that governs changes: the store, where audit events go, whom to tell
of applied flags, and what to do about stale proposals.

The store can be made to fail. A queued fault is answered in place of the next
call of its method, and that call does nothing else.
-/

namespace FlagGovernance

/-- What an apply does when the flag moved since the request was opened. -/
inductive StalePolicy
  | lastWriteWins
  | rejectStale
deriving DecidableEq, Repr

namespace StalePolicy

def name : StalePolicy → String
  | lastWriteWins => "last-write-wins"
  | rejectStale => "reject-stale"

def all : List StalePolicy := [lastWriteWins, rejectStale]

def ofName? (text : String) : Option StalePolicy :=
  all.find? (fun p => p.name == text)

/-- The refusal of a text that names no policy. -/
def unknownText (text : String) : String :=
  "unknown stale apply policy '" ++ text ++ "', expected last-write-wins or reject-stale"

def toJson (p : StalePolicy) : Json := .string p.name

def decode : Decoder StalePolicy :=
  Decode.choice (all.map (fun p => (p.name, .nothing p)))

/-- What a write under the policy expects of a flag proposed against a
revision. -/
def check (p : StalePolicy) (base : Option Nat) : RevisionCheck :=
  match p with
  | lastWriteWins => .any
  | rejectStale => .ofBase base

end StalePolicy

/-- The calls that operations make to the store. -/
inductive StoreCall
  | getFlag
  | insertRequest
  | getRequest
  | listRequests
  | listReviews
  | countPending
  | recordReview
  | transition
  | commitApply
deriving DecidableEq, Repr

/-- Where audit events go. -/
inductive AuditSink
  | log (entries : AuditLog)
  | failing
  | absent
deriving Repr

/-- Takes an event; only a log keeps it. -/
def AuditSink.record (event : AuditEvent) : AuditSink → AuditSink
  | log entries => log (entries.log event)
  | failing => failing
  | absent => absent

/-- Whom to tell that a flag changed. Whether the telling succeeds makes no
difference to anything. -/
inductive RelaySignal
  | answering
  | failing
  | absent
deriving DecidableEq, Repr

/-- The flag that was applied. -/
structure RefreshTarget where
  project : String
  flagKey : String
deriving DecidableEq, Repr

structure Governance where
  store : Store
  /-- Faults not yet met, the oldest first. -/
  faults : List (StoreCall × StoreError)
  sink : AuditSink
  relay : RelaySignal
  /-- The signals sent, the oldest first. -/
  signals : List RefreshTarget
  policy : StalePolicy
deriving Repr

namespace Governance

/-- A governance with an empty store and no faults. -/
def start (sink : AuditSink) (relay : RelaySignal) (policy : StalePolicy) : Governance :=
  ⟨.empty, [], sink, relay, [], policy⟩

/-- The oldest fault queued for a call, and the others. -/
def takeFault (call : StoreCall) :
    List (StoreCall × StoreError) → Option (StoreError × List (StoreCall × StoreError))
  | [] => none
  | (c, e) :: rest =>
    if c = call then some (e, rest)
    else (takeFault call rest).map (fun found => (found.1, (c, e) :: found.2))

/-- One call to the store. -/
def call {α : Type} (g : Governance) (name : StoreCall) (step : Store → Store.Step α) :
    Except StoreError α × Governance :=
  match takeFault name g.faults with
  | some (e, rest) => (.error e, { g with faults := rest })
  | none =>
    let (answer, store) := step g.store
    (answer, { g with store })

/-- A call that only reads the store. -/
def read {α : Type} (g : Governance) (name : StoreCall) (look : Store → α) :
    Except StoreError α × Governance :=
  g.call name (fun s => (.ok (look s), s))

/-- Hands an event to the sink. -/
def emit (g : Governance) (event : AuditEvent) : Governance :=
  { g with sink := g.sink.record event }

/-- Signals that a flag changed. -/
def signal (g : Governance) (target : RefreshTarget) : Governance :=
  match g.relay with
  | .absent => g
  | _ => { g with signals := g.signals ++ [target] }

/-- The entries of the log that events go to, if they go to one. -/
def auditLog (g : Governance) : Option AuditLog :=
  match g.sink with
  | .log entries => some entries
  | _ => none

end Governance

end FlagGovernance
