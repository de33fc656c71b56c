import FlagGovernance.Query.Expr
import Mathlib.Data.List.Basic
import Mathlib.Data.List.Induction
/-
The attributes of a query.

The leaves are met from left to right, and the path of each is noted unless it has been.
So the attributes are the paths at the leaves, each once and in the order in which they
are first met, and those of several operands are the attributes of the operands in a row,
less the repeats.
-/

namespace FlagGovernance

namespace ExprOf

variable {L : Type}

mutual

/-- The paths at the leaves of a query, from left to right. -/
def leafPaths : ExprOf L → List String
  | .or operands => leafPathsAll operands
  | .and operands => leafPathsAll operands
  | .not operand => leafPaths operand
  | .compare path _ _ => [path]
  | .within path _ => [path]
  | .present path => [path]

def leafPathsAll : List (ExprOf L) → List String
  | [] => []
  | e :: rest => leafPaths e ++ leafPathsAll rest

end

/-- The path stands at some leaf of the query. -/
inductive AsksAbout (path : String) : ExprOf L → Prop
  | or {operands : List (ExprOf L)} {e : ExprOf L} (hmem : e ∈ operands)
      (hasks : AsksAbout path e) : AsksAbout path (.or operands)
  | and {operands : List (ExprOf L)} {e : ExprOf L} (hmem : e ∈ operands)
      (hasks : AsksAbout path e) : AsksAbout path (.and operands)
  | not {operand : ExprOf L} (hasks : AsksAbout path operand) : AsksAbout path (.not operand)
  | compare (op : Operator) (value : L) : AsksAbout path (.compare path op value)
  | within (values : List L) : AsksAbout path (.within path values)
  | present : AsksAbout path (.present path)

mutual

theorem mem_leafPaths_iff {path : String} (e : ExprOf L) :
    path ∈ e.leafPaths ↔ e.AsksAbout path := by
  cases e with
  | or operands =>
      rw [leafPaths, mem_leafPathsAll_iff]
      exact ⟨fun ⟨e, hmem, hasks⟩ => .or hmem hasks, fun | .or hmem hasks => ⟨_, hmem, hasks⟩⟩
  | and operands =>
      rw [leafPaths, mem_leafPathsAll_iff]
      exact ⟨fun ⟨e, hmem, hasks⟩ => .and hmem hasks, fun | .and hmem hasks => ⟨_, hmem, hasks⟩⟩
  | not operand =>
      rw [leafPaths, mem_leafPaths_iff operand]
      exact ⟨.not, fun | .not hasks => hasks⟩
  | compare other op value =>
      rw [leafPaths, List.mem_singleton]
      exact ⟨fun heq => heq ▸ .compare op value, fun | .compare _ _ => rfl⟩
  | within other values =>
      rw [leafPaths, List.mem_singleton]
      exact ⟨fun heq => heq ▸ .within values, fun | .within _ => rfl⟩
  | present other =>
      rw [leafPaths, List.mem_singleton]
      exact ⟨fun heq => heq ▸ .present, fun | .present => rfl⟩

theorem mem_leafPathsAll_iff {path : String} (operands : List (ExprOf L)) :
    path ∈ leafPathsAll operands ↔ ∃ e ∈ operands, e.AsksAbout path := by
  cases operands with
  | nil => simp [leafPathsAll]
  | cons e rest =>
      rw [leafPathsAll, List.mem_append, mem_leafPaths_iff e, mem_leafPathsAll_iff rest]
      simp

end

/-! What was noted is what was met, less the repeats. -/

theorem eraseDups_concat (met : List String) (path : String) :
    (met ++ [path]).eraseDups = note met.eraseDups path := by
  rw [List.eraseDups_append, note]
  by_cases hmet : path ∈ met
  · simp [List.removeAll, hmet]
  · simp [List.removeAll, hmet, List.eraseDups_cons]

/-- It is the same whether repeats go before or after more has been met. -/
theorem eraseDups_append_eraseDups (met more : List String) :
    (met ++ more.eraseDups).eraseDups = (met ++ more).eraseDups := by
  -- from the back, since a path is noted behind those met before it
  induction more using List.reverseRecOn with
  | nil => rfl
  | append_singleton more path ih =>
      rw [eraseDups_concat, ← List.append_assoc, eraseDups_concat, ← ih, note]
      by_cases hmore : path ∈ more
      · rw [if_pos (List.mem_eraseDups.mpr hmore), note, if_pos]
        simp [hmore]
      · rw [if_neg (mt List.mem_eraseDups.mp hmore), ← List.append_assoc, eraseDups_concat]

/-- Where repeats have been let go, the rest stand as they were first met. -/
theorem eraseDups_pairwise (met : List String) :
    met.eraseDups.Pairwise (fun a b => met.idxOf a < met.idxOf b) := by
  induction met using List.reverseRecOn with
  | nil => exact .nil
  | append_singleton met path ih =>
      have hsame {a : String} (ha : a ∈ met.eraseDups) :
          (met ++ [path]).idxOf a = met.idxOf a :=
        List.idxOf_append_of_mem (List.mem_eraseDups.mp ha)
      have hbefore : met.eraseDups.Pairwise
          (fun a b => (met ++ [path]).idxOf a < (met ++ [path]).idxOf b) := by
        refine ih.imp_of_mem ?_
        intro a b ha hb hlt
        rw [hsame ha, hsame hb]
        exact hlt
      rw [eraseDups_concat, note]
      by_cases hmet : path ∈ met.eraseDups
      · rw [if_pos hmet]
        exact hbefore
      · rw [if_neg hmet, List.pairwise_append]
        refine ⟨hbefore, List.pairwise_singleton _ _, ?_⟩
        intro a ha b hb
        obtain rfl := List.mem_singleton.mp hb
        rw [hsame ha, List.idxOf_append_of_notMem (mt List.mem_eraseDups.mpr hmet)]
        exact Nat.lt_add_right _ (List.idxOf_lt_length_of_mem (List.mem_eraseDups.mp ha))

mutual

/-- Whatever was met before: once a query is collected, its leaves have been met as well. -/
theorem collect_eraseDups (met : List String) (e : ExprOf L) :
    collect met.eraseDups e = (met ++ e.leafPaths).eraseDups := by
  cases e with
  | or operands => exact collectAll_eraseDups met operands
  | and operands => exact collectAll_eraseDups met operands
  | not operand => exact collect_eraseDups met operand
  | compare path op value => exact (eraseDups_concat met path).symm
  | within path values => exact (eraseDups_concat met path).symm
  | present path => exact (eraseDups_concat met path).symm

theorem collectAll_eraseDups (met : List String) (operands : List (ExprOf L)) :
    collectAll met.eraseDups operands = (met ++ leafPathsAll operands).eraseDups := by
  cases operands with
  | nil => rw [collectAll, leafPathsAll, List.append_nil]
  | cons e rest =>
      rw [collectAll, leafPathsAll, collect_eraseDups met e, collectAll_eraseDups _ rest,
        List.append_assoc]

end

theorem attributes_eq_eraseDups (e : ExprOf L) : e.attributes = e.leafPaths.eraseDups :=
  collect_eraseDups [] e

/-- A query adds its attributes to what was found before it. -/
theorem collectAll_eq_flatMap (met : List String) (operands : List (ExprOf L)) :
    collectAll met.eraseDups operands = (met ++ operands.flatMap attributes).eraseDups := by
  induction operands generalizing met with
  | nil => rw [collectAll, List.flatMap_nil, List.append_nil]
  | cons e rest ih =>
      have hfirst : collect met.eraseDups e = (met ++ e.attributes).eraseDups := by
        rw [collect_eraseDups, attributes_eq_eraseDups, eraseDups_append_eraseDups]
      rw [collectAll, hfirst, ih, List.flatMap_cons, List.append_assoc]

/-- The attributes of a query are without repeats just the paths at its leaves, in the
order in which the leaves first show them from left to right; those of alternatives, and
of conditions that hold together, are the attributes of the operands in a row with only
the first of each kept. -/
theorem attributes_as_first_met (e : ExprOf L) :
    e.attributes.Nodup ∧
    (∀ path, path ∈ e.attributes ↔ e.AsksAbout path) ∧
    e.attributes.Pairwise (fun a b => e.leafPaths.idxOf a < e.leafPaths.idxOf b) ∧
    ∀ operands : List (ExprOf L),
      (ExprOf.or operands).attributes = (operands.flatMap attributes).eraseDups ∧
      (ExprOf.and operands).attributes = (operands.flatMap attributes).eraseDups := by
  have hordered := eraseDups_pairwise e.leafPaths
  rw [← attributes_eq_eraseDups] at hordered
  refine ⟨?_, fun path => ?_, hordered, fun operands => ?_⟩
  · refine hordered.imp ?_
    rintro a _ hlt rfl
    exact Nat.lt_irrefl _ hlt
  · rw [attributes_eq_eraseDups, List.mem_eraseDups, mem_leafPaths_iff]
  · exact ⟨collectAll_eq_flatMap [] operands, collectAll_eq_flatMap [] operands⟩

/-- A path that was met within an operand is not noted again behind it. -/
example :
    (ExprOf.or [.and [.present "b", .not (.present "a")], .present "c", .present "b"] :
      ExprOf Unit).attributes = ["b", "a", "c"] := by
  decide

end ExprOf

end FlagGovernance
