import FlagGovernance.Audit.Event
import FlagGovernance.Json.Writer
/-
A bounded log of audit events.

The log keeps the newest events, oldest first, up to a limit of its own. Queries
are sublists of it; statistics count it.
-/

namespace FlagGovernance

structure AuditLog where
  limit : Nat
  entries : List AuditEvent
deriving Repr

/-- Counts of the events of a log. -/
structure AuditStats where
  total : Nat
  created : Nat
  reviewed : Nat
  applied : Nat
  cancelled : Nat
  applyRate : Double
  cancelRate : Double
deriving DecidableEq, Repr

namespace AuditLog

def empty (limit : Nat) : AuditLog := ⟨limit, []⟩

/-- The last `limit` of some events. -/
def newest (limit : Nat) (events : List AuditEvent) : List AuditEvent :=
  events.drop (events.length - limit)

/-- Adds an event and lets go of the oldest past the limit. -/
def log (l : AuditLog) (event : AuditEvent) : AuditLog :=
  { l with entries := newest l.limit (l.entries ++ [event]) }

def clear (l : AuditLog) : AuditLog := { l with entries := [] }

def length (l : AuditLog) : Nat := l.entries.length

/-- The newest events, newest first. -/
def recent (l : AuditLog) (count : Nat) : List AuditEvent :=
  l.entries.reverse.take count

/-- The events at a moment or after it. -/
def since (l : AuditLog) (time : Instant) : List AuditEvent :=
  l.entries.filter (fun e => time.notAfter e.timestamp)

def forResource (l : AuditLog) (resourceId : String) : List AuditEvent :=
  l.entries.filter (fun e => e.resourceId == resourceId)

def forAction (l : AuditLog) (action : AuditAction) : List AuditEvent :=
  l.entries.filter (fun e => e.action == action)

/-- One line of compact JSON for each event. -/
def lines (l : AuditLog) : String :=
  String.intercalate "\n" (l.entries.map (fun e => e.toJson.text))

/-- A count as a part of another, zero of nothing. -/
def rate (part whole : Nat) : Double :=
  if 0 < whole then (Double.ofNat part).div (Double.ofNat whole) else .zero

/-- How often each name stands in a list. -/
def tally (names : List String) : OrderedMap String Nat :=
  names.foldl (fun counts name => counts.insert name ((counts.find? name).getD 0 + 1)) ∅

def stats (l : AuditLog) : AuditStats :=
  let counts := tally (l.entries.map (fun e => e.action.name))
  let count := fun (action : AuditAction) => (counts.find? action.name).getD 0
  { total := l.length
    created := count .created
    reviewed := count .reviewed
    applied := count .applied
    cancelled := count .cancelled
    applyRate := rate (count .applied) (count .created)
    cancelRate := rate (count .cancelled) (count .created) }

end AuditLog

namespace AuditStats

def toJson (s : AuditStats) : Json :=
  .object [("total", .ofNat s.total), ("created", .ofNat s.created), ("reviewed", .ofNat s.reviewed),
    ("applied", .ofNat s.applied), ("cancelled", .ofNat s.cancelled),
    ("applyRate", .ofDouble s.applyRate), ("cancelRate", .ofDouble s.cancelRate)]

open Decode in
def decode : Decoder AuditStats :=
  record "AuditStats"
    (AuditStats.mk <$> .required "total" (natural "usize") <*> .required "created" (natural "usize")
      <*> .required "reviewed" (natural "usize") <*> .required "applied" (natural "usize")
      <*> .required "cancelled" (natural "usize") <*> .required "applyRate" double
      <*> .required "cancelRate" double)

end AuditStats

end FlagGovernance
