import FlagGovernance.Proofs.Query.Completeness
/-
Queries are read exactly.

A text is read to a tree just when it falls into terminals that have a derivation
and no string among them holds half of a surrogate pair. The terminals and the
derivation are then the only ones, and the tree is that of the derivation.
-/

namespace FlagGovernance.Query

theorem Splits.not_allBlank {text : String} {ts : List Terminal} (h : Splits text.toList ts)
    (hts : ts ≠ []) : Text.allBlank text = false := by
  cases ts with
  | nil => exact absurd rfl hts
  | cons t ts =>
    obtain ⟨next, hleads, -⟩ := h.exists_leads
    obtain ⟨c, rest, htext, hc, -⟩ := t.exists_cons_not_blank
    have hmem : c ∈ text.toList := by
      apply List.dropWhile_subset isSpace
      rw [← skip, hleads.split, htext]
      exact .head _
    exact List.all_eq_false.mpr ⟨c, hmem, by simp [hc]⟩

/-- A text that falls into the leaves of a derivation is read to its tree. -/
theorem parse_of_splits {text : String} {d : Alternatives} (hsplits : Splits text.toList d.yield)
    (hclean : AllClean d.yield) : parse text = .ok d.expr := by
  obtain ⟨draft, c', hmatch, -⟩ := query_reaches (c := ⟨0, text.toList⟩) hsplits
  obtain ⟨t', ht⟩ := hmatch .start
  obtain ⟨d', hsplits', hd'⟩ := query_sound ⟨.start, t', ht⟩
  -- What the match stands for is found by its terminals, which are the same.
  obtain rfl : d = d' := Alternatives.yield_inj (hsplits.unique hsplits')
  rw [parse, if_neg (by simp [hsplits.not_allBlank d.yield_ne_nil])]
  simp only
  rw [ht]
  exact mapError_eq_ok_iff.mpr ((hd' d.expr).mpr ⟨hclean, rfl⟩)

/-- A text that is read falls into the leaves of a derivation, and its tree is the answer. -/
theorem exists_splits_of_parse {text : String} {e : Expr} (h : parse text = .ok e) :
    ∃ d : Alternatives, Splits text.toList d.yield ∧ AllClean d.yield ∧ d.expr = e := by
  rw [parse] at h
  split at h
  next => cases h
  next =>
    simp only at h
    split at h
    next => cases h
    next draft c' t' hmatch =>
      obtain ⟨d, hsplits, hd⟩ := query_sound ⟨.start, t', hmatch⟩
      obtain ⟨hclean, htree⟩ := (hd e).mp (mapError_eq_ok_iff.mp h)
      exact ⟨d, hsplits, hclean, htree⟩

/-- A text is read to a tree just when it falls into terminals, no string among
them holds half of a surrogate pair, and they are the leaves of a derivation whose
tree it is. A text falls into terminals in one way, and they have one derivation. -/
theorem parse_eq_ok_iff (text : String) (e : Expr) :
    parse text = .ok e ↔
      ∃ ts, Splits text.toList ts ∧ AllClean ts ∧
        (∀ ts', Splits text.toList ts' → ts' = ts) ∧
        ∃ d : Alternatives, d.yield = ts ∧ d.expr = e ∧
          ∀ d' : Alternatives, d'.yield = ts → d' = d := by
  constructor
  · intro h
    obtain ⟨d, hsplits, hclean, htree⟩ := exists_splits_of_parse h
    exact ⟨d.yield, hsplits, hclean, fun ts' hts' => hts'.unique hsplits, d, rfl, htree,
      fun d' hd' => Alternatives.yield_inj hd'⟩
  · rintro ⟨ts, hsplits, hclean, -, d, rfl, rfl, -⟩
    exact parse_of_splits hsplits hclean

example : (match parse "not eq 30and not pr pr" with
    | .ok (.and [.compare "not" .eq (.number _), .not (.present "pr")]) => true
    | _ => false) = true := by decide +kernel

end FlagGovernance.Query
