import FlagGovernance.Audit.Log
import FlagGovernance.Proofs.Config.WellFormed
import FlagGovernance.Proofs.Parting
import Mathlib.Data.List.DropRight
import Mathlib.Data.List.Induction
/-
What a bounded log keeps, and what its queries and counts tell of it.

A log that takes one event more lets go of the oldest past its limit, and what was let go
of would not have been kept later; clearing it forgets all.  So it holds the newest of the
events since it was last cleared.  The queries pick from these in their order, and the
counts, taken name by name in one pass, are the lengths of what is picked for each action.
-/

namespace FlagGovernance

theorem AuditAction.mem_all (action : AuditAction) : action ∈ all := by
  cases action <;> decide

theorem AuditAction.all_nodup : all.Nodup := by decide

theorem AuditAction.name_injective : Function.Injective name := by
  intro a b heq
  revert heq
  cases a <;> cases b <;> decide

namespace AuditLog

theorem newest_nil (limit : Nat) : newest limit [] = [] := List.drop_nil

theorem newest_of_length_le {limit : Nat} {events : List AuditEvent}
    (hlength : events.length ≤ limit) : newest limit events = events := by
  rw [newest, Nat.sub_eq_zero_of_le hlength, List.drop_zero]

/-- What was let go of would not have been kept later. -/
theorem newest_append (limit : Nat) (events more : List AuditEvent) :
    newest limit (newest limit events ++ more) = newest limit (events ++ more) := by
  have hsplit : newest limit events ++ more =
      (events ++ more).drop (events.length - limit) :=
    (List.drop_append_of_le_length (Nat.sub_le _ _)).symm
  simp only [newest] at hsplit ⊢
  rw [hsplit, List.drop_drop, List.length_drop, List.length_append]
  congr 1
  omega

theorem log_newest (limit : Nat) (events : List AuditEvent) (event : AuditEvent) :
    log ⟨limit, newest limit events⟩ event = ⟨limit, newest limit (events ++ [event])⟩ := by
  rw [log, newest_append]

theorem newest_suffix (limit : Nat) (events : List AuditEvent) : newest limit events <:+ events :=
  List.drop_suffix _ _

theorem length_newest (limit : Nat) (events : List AuditEvent) :
    (newest limit events).length = min limit events.length := by
  rw [newest, List.length_drop]
  omega

/-- What is done to a log. -/
inductive Call
  | log (event : AuditEvent)
  | clear

def Call.event? : Call → Option AuditEvent
  | .log event => some event
  | .clear => none

def after (l : AuditLog) : Call → AuditLog
  | .log event => l.log event
  | .clear => l.clear

def run (l : AuditLog) (calls : List Call) : AuditLog := calls.foldl after l

/-- The events that were logged since the log was last cleared, oldest first. -/
def logged (calls : List Call) : List AuditEvent :=
  (calls.rtakeWhile (fun call => call.event?.isSome)).filterMap Call.event?

theorem logged_concat_log (calls : List Call) (event : AuditEvent) :
    logged (calls ++ [.log event]) = logged calls ++ [event] := by
  have hadds : (Call.log event).event?.isSome = true := rfl
  rw [logged, List.rtakeWhile_concat, if_pos hadds, List.filterMap_append]
  rfl

theorem logged_concat_clear (calls : List Call) : logged (calls ++ [.clear]) = [] := by
  have hforgets : ¬ Call.clear.event?.isSome = true := Bool.false_ne_true
  rw [logged, List.rtakeWhile_concat, if_neg hforgets]
  rfl

/-- A call keeps it so that the log holds the newest of what was logged. -/
theorem after_newest (limit : Nat) (calls : List Call) (call : Call) :
    after ⟨limit, newest limit (logged calls)⟩ call =
      ⟨limit, newest limit (logged (calls ++ [call]))⟩ := by
  cases call with
  | log event => rw [after, log_newest, logged_concat_log]
  | clear =>
      rw [logged_concat_clear, newest_nil]
      rfl

theorem run_empty (limit : Nat) (calls : List Call) :
    (empty limit).run calls = ⟨limit, newest limit (logged calls)⟩ := by
  induction calls using List.reverseRecOn with
  | nil => exact congrArg (AuditLog.mk limit) (newest_nil limit).symm
  | append_singleton calls call ih =>
      rw [← after_newest, ← ih, run, List.foldl_append]
      rfl

/-- Going through the names once counts each of them. -/
theorem count_tally (names : List String) (name : String) :
    ((tally names).find? name).getD 0 = names.count name := by
  induction names using List.reverseRecOn with
  | nil => rfl
  | append_singleton names last ih =>
      rw [tally, List.foldl_append, List.foldl_cons, List.foldl_nil, ← tally, List.count_append,
        List.count_singleton]
      by_cases hlast : last = name
      · rw [hlast, OrderedMap.find?_insert_self, ih]
        simp
      · rw [OrderedMap.find?_insert_of_ne _ (Ne.symm hlast), ih]
        simp [hlast]

/-- The count that the statistics take of an action. -/
theorem count_action (l : AuditLog) (action : AuditAction) :
    ((tally (l.entries.map (fun e => e.action.name))).find? action.name).getD 0 =
      (l.forAction action).length := by
  rw [count_tally, List.count, List.countP_map, forAction, ← List.countP_eq_length_filter]
  refine List.countP_congr fun e _ => ?_
  simp [AuditAction.name_injective.eq_iff]

/-- The statistics tell how many events there are, and how many of each action. -/
theorem stats_eq (l : AuditLog) :
    l.stats =
      { total := l.length
        created := (l.forAction .created).length
        reviewed := (l.forAction .reviewed).length
        applied := (l.forAction .applied).length
        cancelled := (l.forAction .cancelled).length
        applyRate := rate (l.forAction .applied).length (l.forAction .created).length
        cancelRate := rate (l.forAction .cancelled).length (l.forAction .created).length } := by
  simp only [stats, count_action]

theorem forAction_perm (l : AuditLog) : (AuditAction.all.flatMap l.forAction).Perm l.entries :=
  flatMap_filter_perm AuditEvent.action AuditAction.all_nodup AuditAction.mem_all l.entries

theorem forAction_disjoint (l : AuditLog) {a b : AuditAction} (hne : a ≠ b) :
    (l.forAction a).Disjoint (l.forAction b) := by
  intro e ha hb
  simp only [forAction, List.mem_filter, beq_iff_eq] at ha hb
  exact hne (ha.2.symm.trans hb.2)

/-- However a log with a limit was used: it holds the last of the events that were logged
since it was last cleared, as many as the limit allows; its newest come first when asked
for; the queries pick from it in its order what is of a moment or later, what is about a
resource and what is of an action; the events of the actions part it, and the statistics
tell how many there are of each and in all. -/
theorem retains_newest (limit : Nat) (calls : List Call) :
    let l := (empty limit).run calls
    l.entries <:+ logged calls ∧ l.entries.length = min limit (logged calls).length ∧
    (∀ count, l.recent count <+: l.entries.reverse ∧
      (l.recent count).length = min count l.length) ∧
    (∀ time, Picks (fun e => e.timestamp.before time = false) l.entries (l.since time)) ∧
    (∀ resourceId, Picks (fun e => e.resourceId = resourceId) l.entries
      (l.forResource resourceId)) ∧
    (∀ action, Picks (fun e => e.action = action) l.entries (l.forAction action)) ∧
    (AuditAction.all.flatMap l.forAction).Perm l.entries ∧
    (AuditAction.all.Pairwise fun a b => (l.forAction a).Disjoint (l.forAction b)) ∧
    l.stats.created = (l.forAction .created).length ∧
    l.stats.reviewed = (l.forAction .reviewed).length ∧
    l.stats.applied = (l.forAction .applied).length ∧
    l.stats.cancelled = (l.forAction .cancelled).length ∧
    l.stats.total = l.length := by
  intro l
  have hentries : l.entries = newest limit (logged calls) :=
    congrArg entries (run_empty limit calls)
  have hstats := l.stats_eq
  refine ⟨?_, ?_, fun count => ⟨List.take_prefix _ _, ?_⟩, fun time => picks_filter ?_ _,
    fun resourceId => picks_filter (fun _ => beq_iff_eq) _,
    fun action => picks_filter (fun _ => beq_iff_eq) _, l.forAction_perm,
    AuditAction.all_nodup.imp l.forAction_disjoint, ?_⟩
  · rw [hentries]
    exact newest_suffix limit _
  · rw [hentries]
    exact length_newest limit _
  · rw [recent, List.length_take, List.length_reverse, length]
  · intro e
    rw [← Bool.not_eq_false (time.notAfter _), Instant.notAfter_eq_false_iff, Bool.not_eq_true]
  · simp only [hstats, and_self]

end AuditLog

end FlagGovernance
