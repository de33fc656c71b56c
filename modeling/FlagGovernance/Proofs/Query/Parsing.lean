import FlagGovernance.Proofs.Query.Exact
import FlagGovernance.Proofs.Query.Truncation
/-
The shortest queries that hold a value.

They compare an attribute with it: however the value is written, such a query is read to
the comparison with what it stands for.
-/

namespace FlagGovernance.Query

/-- The path `a`. -/
def pathA : Word := ⟨['a'], .one ⟨by decide, nofun⟩⟩

def eqKeyword : Spelling Operator.eq.keyword :=
  ⟨⟨['e', 'q'], .one ⟨by decide, List.all_eq_true.mp (by decide)⟩⟩, rfl⟩

/-- The derivation of the comparison of `a` with a value. -/
def equalsScalar (s : Scalar) : Alternatives :=
  .last (.last (.condition (.compare pathA .eq (by decide) eqKeyword s)))

theorem equalsScalar_yield (s : Scalar) :
    (equalsScalar s).yield = [.word pathA, eqKeyword.terminal, s.terminal] := rfl

theorem parse_equalsScalar {s : Scalar} (hclean : s.terminal.Clean) :
    parse ("a eq " ++ String.ofList s.terminal.text) = .ok (.compare "a" .eq s.literal) := by
  have htext : ("a eq " ++ String.ofList s.terminal.text).toList =
      (Terminal.word pathA).text ++ ' ' :: (eqKeyword.terminal.text ++ ' ' :: s.terminal.text) := by
    simp [pathA, eqKeyword, Spelling.terminal, Terminal.text]
  have hvalue : Splits s.terminal.text [s.terminal] := (leads_alone _).cuts (Eq.refl (skip []))
  refine parse_of_splits (d := equalsScalar s) ?_ ?_
  · rw [htext, equalsScalar_yield]
    exact (hvalue.cons_spaced eqKeyword.terminal).cons_spaced (.word pathA)
  · rw [equalsScalar_yield]
    simpa using hclean

end FlagGovernance.Query
