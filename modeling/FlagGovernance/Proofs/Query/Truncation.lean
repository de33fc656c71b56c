import FlagGovernance.Proofs.Query.Lexing
/-
Cutting a text short and going on in another way.

A terminal that stands at the front of a text is the longest one there also if the text is
cut short behind it and a space follows: only a string can hold a space, and where a string
ends does not hang on what follows it.  So terminals taken off a text up to some place are
taken off every text that is the same up to that place and has a space there.
-/

namespace FlagGovernance.Query

theorem Numeral.not_mem_space (n : Numeral) : ' ' ∉ n.text := by
  have hdigits (d : Digits) : ' ' ∉ d.text := fun hmem => absurd (d.allDigits ' ' hmem) (by decide)
  have hsign : ' ' ∉ signText n.negative := by cases n.negative <;> decide
  have hfraction : ' ' ∉ fractionText n.fraction := by
    cases n.fraction with
    | none => exact List.not_mem_nil
    | some d => simpa [fractionText] using hdigits d
  have hexponent : ' ' ∉ exponentText n.exponent := by
    cases n.exponent with
    | none => exact List.not_mem_nil
    | some e =>
        have hexponentSign : ' ' ∉ e.sign.text := by cases e.sign <;> decide
        have hletter : ' ' ≠ e.letter := by
          rcases e.isLetter with hletter | hletter <;> rw [hletter] <;> decide
        simp [exponentText, Exponent.text, hletter, hexponentSign, hdigits e.digits]
  simp [text, hsign, hdigits n.whole, hfraction, hexponent]

/-- Only a string has a space in it. -/
theorem Terminal.exists_quoted_of_mem_space {t : Terminal} (hmem : ' ' ∈ t.text) :
    ∃ ps, t = .quoted ps := by
  cases t with
  | word w => exact absurd (continuesWord_of_isPath w.isPath ' ' hmem) (by decide)
  | number n => exact absurd hmem n.not_mem_space
  | quoted ps => exact ⟨ps, rfl⟩
  | mark m => cases m <;> exact absurd hmem (by decide)

/-- Where a string ends does not hang on what follows it. -/
theorem Terminal.eq_of_quoted {t : Terminal} {ps : List Piece} {rest rest' : List Char}
    (h : (Terminal.quoted ps).text ++ rest = t.text ++ rest') : t = .quoted ps := by
  have hkind := Terminal.kind_eq_of_append_eq h
  cases t with
  | quoted ps' =>
      simp only [Terminal.text, List.cons_append, List.append_assoc, List.nil_append,
        List.cons.injEq, true_and] at h
      rw [(bodyText_append_inj h).1]
  | _ => cases hkind

/-- The longest terminal stays the longest if the text is cut short behind it and goes on
with a space. -/
theorem Leads.truncate {t : Terminal} {kept rest : List Char}
    (h : Leads t (t.text ++ (kept ++ rest)) (kept ++ rest)) (others : List Char) :
    Leads t (t.text ++ (kept ++ ' ' :: others)) (kept ++ ' ' :: others) := by
  refine ⟨rfl, fun t' rest' hsplit => ?_⟩
  have hwithin (more : List Char) (htext : t.text ++ kept = t'.text ++ more) :
      t'.text.length ≤ t.text.length := by
    refine h.longest t' (more ++ rest) ?_
    rw [← List.append_assoc, htext, List.append_assoc]
  rw [← List.append_assoc] at hsplit
  rcases List.append_eq_append_iff.mp hsplit with ⟨more, htext, hrest⟩ | ⟨more, htext, -⟩
  · cases more with
    | nil => exact hwithin [] (by simpa using htext.symm)
    | cons c more =>
        -- A terminal that goes on past the space is a string, and so is the other one.
        obtain ⟨rfl, -⟩ := List.cons.inj hrest
        obtain ⟨ps, rfl⟩ := Terminal.exists_quoted_of_mem_space (t := t') (by simp [htext])
        rw [List.append_assoc] at hsplit
        exact Nat.le_of_eq (by rw [Terminal.eq_of_quoted hsplit.symm])
  · exact hwithin more htext

theorem isSpace_of_skip_append {front rest : List Char} (h : skip (front ++ rest) = rest) :
    ∀ c ∈ front, isSpace c = true := by
  induction front with
  | nil => simp
  | cons c front ih =>
      by_cases hc : isSpace c = true
      · rw [List.cons_append, skip, List.dropWhile_cons_of_pos hc] at h
        simpa [hc] using ih h
      · rw [List.cons_append, skip, List.dropWhile_cons_of_neg hc] at h
        have hlength := congrArg List.length h
        simp only [List.length_cons, List.length_append] at hlength
        omega

theorem skip_append_of_forall {front : List Char} (hfront : ∀ c ∈ front, isSpace c = true)
    (rest : List Char) : skip (front ++ rest) = skip rest :=
  List.dropWhile_append_of_pos hfront

theorem splits_space_iff {text : List Char} {ts : List Terminal} :
    Splits (' ' :: text) ts ↔ Splits text ts := by
  rw [Splits, ← cuts_skip_iff, show skip (' ' :: text) = skip text from rfl, cuts_skip_iff, Splits]

/-- Before a terminal that leads the rest of a text there are only spaces. -/
theorem Leads.exists_spaces {t : Terminal} {text next : List Char} (h : Leads t (skip text) next) :
    ∃ spaces, (∀ c ∈ spaces, isSpace c = true) ∧ text = spaces ++ (t.text ++ next) := by
  refine ⟨text.takeWhile isSpace, ?_, ?_⟩
  · exact fun c hc => List.all_eq_true.mp List.all_takeWhile c hc
  · rw [← h.split]
    exact List.takeWhile_append_dropWhile.symm

/-- Terminals that stand up to a place stand in every text that is the same up to there and
goes on with a space. -/
theorem Cuts.truncate {front rest others : List Char} {ts us : List Terminal}
    (h : Cuts (front ++ rest) ts rest) (hrest : skip rest = rest) (hothers : Splits others us) :
    Splits (front ++ ' ' :: others) (ts ++ us) := by
  induction ts generalizing front with
  | nil =>
      have hspaces := isSpace_of_skip_append (Eq.trans h hrest)
      rw [Splits, ← cuts_skip_iff, skip_append_of_forall hspaces, cuts_skip_iff]
      exact splits_space_iff.mpr hothers
  | cons t ts ih =>
      obtain ⟨next, hleads, hcuts⟩ := h
      obtain ⟨spaces, hspaces, htext⟩ := hleads.exists_spaces
      -- The rest stands behind the first terminal, so the terminal stands in what is kept.
      have hlength : rest.length ≤ next.length := by
        have hle := hcuts.length_le
        have hskip := length_skip_le next
        rw [hrest] at hle
        omega
      obtain ⟨kept, rfl⟩ : rest <:+ next := by
        refine List.suffix_of_suffix_length_le (List.suffix_append front rest) ?_ hlength
        exact ⟨spaces ++ t.text, by rw [htext, List.append_assoc]⟩
      obtain rfl : front = spaces ++ (t.text ++ kept) := by
        have hsame : front ++ rest = spaces ++ (t.text ++ kept) ++ rest := by
          rw [htext, List.append_assoc, List.append_assoc]
        exact List.append_cancel_right hsame
      have hstands : Leads t (t.text ++ (kept ++ rest)) (kept ++ rest) := by
        rw [hleads.split] at hleads
        exact hleads
      rw [Splits, ← cuts_skip_iff, List.append_assoc, skip_append_of_forall hspaces,
        List.append_assoc, cuts_skip_iff]
      exact (hstands.truncate others).cuts (ih hcuts)

theorem leads_alone (t : Terminal) : Leads t t.text [] := by
  refine ⟨(List.append_nil _).symm, fun t' rest' hsplit => ?_⟩
  have hlength := congrArg List.length hsplit
  rw [List.length_append] at hlength
  omega

theorem Splits.cons_spaced (t : Terminal) {text : List Char} {ts : List Terminal}
    (h : Splits text ts) : Splits (t.text ++ ' ' :: text) (t :: ts) := by
  have halone : Leads t (t.text ++ ([] ++ [])) ([] ++ []) := by simpa using leads_alone t
  exact (halone.truncate text).cuts (splits_space_iff.mpr h)

/-- Terminals as a text, each with a space after it. -/
def spelled (ts : List Terminal) : List Char := ts.flatMap (fun t => t.text ++ [' '])

theorem splits_spelled (ts : List Terminal) : Splits (spelled ts) ts := by
  induction ts with
  | nil => rfl
  | cons t ts ih =>
      rw [spelled, List.flatMap_cons, List.append_assoc]
      exact ih.cons_spaced t

end FlagGovernance.Query
