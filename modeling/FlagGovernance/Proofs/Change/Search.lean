import FlagGovernance.Change.Filter
import FlagGovernance.Proofs.Run
import FlagGovernance.Proofs.Text.Lowering
/-
What a search finds.

The search text and the fields of a request are lowercased apart from each other, and the
lowercase form of a capital sigma depends on what stands around it.  So a search text that
stands in a field is found there unless one of its capital sigmas ends a word in the search
text and not in the field, or in the field and not in the search text.
-/

namespace FlagGovernance

open Text

namespace RequestFilter

theorem found_iff (term text : String) :
    found term text = true ↔ (lower term).toList <:+: (lower text).toList :=
  occursIn_iff_infix _ _

/-- A search text that keeps its sigmas where it stands in a field is found in it. -/
theorem found_of_stands {term text : String} {before after : List Char}
    (hstands : text.toList = before ++ term.toList ++ after)
    (hsigmas : KeepsSigmas before term.toList after) : found term text = true := by
  rw [found_iff]
  exact ((lower_stands_iff hstands).mpr hsigmas).isInfix.trans (List.drop_suffix _ _).isInfix

theorem accepts_of_found {f : RequestFilter} {request : ChangeRequest} {search field : String}
    (hstatus : f.status = none) (hsearch : f.search = some search)
    (hfield : field ∈ [request.title, request.flagKey, request.project])
    (hfound : found (trim search) field = true) : f.accepts request = true := by
  simp only [List.mem_cons, List.not_mem_nil, or_false] at hfield
  simp only [accepts, statusMatches, searchMatches, hstatus, hsearch, Option.map_some,
    Bool.true_and, Bool.or_eq_true]
  rcases hfield with rfl | rfl | rfl
  · exact .inl (.inl (.inr hfound))
  · exact .inl (.inr hfound)
  · exact .inr hfound

/-- Wherever the trimmed search text stands in the title, the flag key or the project, the
lowercase form of the one stands in that of the other just when the capital sigmas are kept,
and a request is then accepted; so it is if the search text has no capital sigma. -/
theorem search_finds_text {f : RequestFilter} {request : ChangeRequest} {search : String}
    (hstatus : f.status = none) (hsearch : f.search = some search) :
    ∀ field ∈ [request.title, request.flagKey, request.project], ∀ before after,
      field.toList = before ++ (trim search).toList ++ after →
        ((lower (trim search)).toList <+:
            (lower field).toList.drop (lower (String.ofList before)).toList.length ↔
          KeepsSigmas before (trim search).toList after) ∧
        (KeepsSigmas before (trim search).toList after → f.accepts request = true) ∧
        ('Σ' ∉ (trim search).toList → f.accepts request = true) := by
  intro field hfield before after hstands
  have haccepts (hsigmas : KeepsSigmas before (trim search).toList after) :
      f.accepts request = true :=
    accepts_of_found hstatus hsearch hfield (found_of_stands hstands hsigmas)
  refine ⟨lower_stands_iff hstands, haccepts, fun hsigma => ?_⟩
  exact haccepts (keepsSigmas_of_not_mem hsigma before after)

end RequestFilter

namespace Sample

/-- A request that is opened with the title. -/
def titled (title : String) : ChangeRequest :=
  { proposal with title := title }.opened actor (stamp 0) none

end Sample

/-- A word that ends in a capital sigma is found where the title goes on with a blank. -/
theorem street_found :
    KeepsSigmas "ΝΕΑ ".toList (trim " ΟΔΟΣ\n").toList " 7".toList ∧
    (RequestFilter.mk none (some " ΟΔΟΣ\n")).accepts (Sample.titled "ΝΕΑ ΟΔΟΣ 7") = true := by
  have hsigmas : KeepsSigmas "ΝΕΑ ".toList (trim " ΟΔΟΣ\n").toList " 7".toList := by
    decide +kernel
  refine ⟨hsigmas, ?_⟩
  exact (RequestFilter.search_finds_text rfl rfl "ΝΕΑ ΟΔΟΣ 7" List.mem_cons_self _ _
    (by decide +kernel)).2.1 hsigmas

/-- The same search text stands in a title that goes on with a letter and is not found. -/
theorem street_not_found_before_letter :
    trim "ΟΔΟΣ" = "ΟΔΟΣ" ∧
    (Sample.titled "ΟΔΟΣΑ").title.toList = [] ++ "ΟΔΟΣ".toList ++ ['Α'] ∧
    (RequestFilter.mk none (some "ΟΔΟΣ")).accepts (Sample.titled "ΟΔΟΣΑ") = false := by
  decide +kernel

end FlagGovernance
