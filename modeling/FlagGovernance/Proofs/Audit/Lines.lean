import FlagGovernance.Audit.Log
import FlagGovernance.Proofs.Json.ControlFree
import FlagGovernance.Proofs.Run
/-
A log written out has one line for each event.

The JSON of an event has no line break in it, whatever the names, texts and documents that
the event holds.  So the breaks between the lines are the only ones, and none of what an
event holds can end its line or start another.
-/

namespace FlagGovernance

namespace AuditLog

/-- Split at every line break, what a log that is not empty writes out falls into as many
pieces as it has events, each the compact JSON of its event and free of control
characters. -/
theorem lines_split {l : AuditLog} (hentries : l.entries ≠ []) :
    let pieces := (l.lines.split '\n').toList.map String.Slice.copy
    pieces.length = l.length ∧ pieces = l.entries.map (fun e => e.toJson.text) ∧
      ∀ piece ∈ pieces, Text.ControlFree piece.toList := by
  intro pieces
  have hfree : ∀ piece ∈ l.entries.map (fun e => e.toJson.text), Text.ControlFree piece.toList := by
    intro piece hmem
    obtain ⟨e, _, rfl⟩ := List.mem_map.mp hmem
    exact e.toJson.controlFree_text
  have hsplit : pieces = l.entries.map (fun e => e.toJson.text) := by
    have hjoined := String.toList_split_intercalate fun piece hmem =>
      (hfree piece hmem).newline_not_mem
    rw [if_neg (by simpa using hentries)] at hjoined
    exact hjoined
  refine ⟨?_, hsplit, ?_⟩
  · rw [hsplit, List.length_map, length]
  · rw [hsplit]
    exact hfree

end AuditLog

/-- Two events with line breaks in a name, a key and a text are written on two lines. -/
theorem broken_names_keep_lines :
    let request := Sample.proposal.opened Sample.actor (Sample.stamp 1) none
    let event := (AuditEvent.forRequest (Sample.stamp 2) .created Sample.actor
      { request with title := "turn\non", flagKey := "\n\"\n" }).withChanges
        (.object [("line\nbreak", .string "\r\n")])
    let l := ((AuditLog.empty 2).log event).log event
    l.entries ≠ [] ∧ ((l.lines.split '\n').toList.map String.Slice.copy).length = 2 ∧
      (l.lines.split '\n').toList.map String.Slice.copy =
        [event.toJson.text, event.toJson.text] := by
  intro request event l
  have hentries : l.entries ≠ [] := List.cons_ne_nil _ _
  obtain ⟨hlength, hpieces, _⟩ := AuditLog.lines_split hentries
  exact ⟨hentries, hlength, hpieces⟩

end FlagGovernance
