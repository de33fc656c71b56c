import FlagGovernance.Proofs.Query.Soundness
/-
What has a derivation is matched.

Where a text falls into the leaves of a derivation and terminals that do not go on
with it, the pattern for it matches and leaves those terminals. An alternative
tried in vain before is one whose match would give the same terminals a second
derivation.
-/

namespace FlagGovernance.Query

variable {c : Cursor} {us : List Terminal}

section TakesLongest

variable {α β : Type} {lexeme : Lexeme α} {make : β → Terminal} {value : β → α} {rule : Rule}

theorem TakesLongest.reaches (hlexeme : TakesLongest lexeme make value) {b : β}
    (h : Splits c.rest (make b :: us)) : Reaches (Grammar.word rule lexeme) (c.skip isSpace) us := by
  obtain ⟨next, hleads, hus⟩ := h.exists_leads
  exact .word (hlexeme.eq_some_iff.mpr ⟨b, hleads, rfl⟩) hus

theorem TakesLongest.misses (hlexeme : TakesLongest lexeme make value) {ts : List Terminal}
    (h : Splits c.rest ts) (hts : ∀ b vs, ts ≠ make b :: vs) :
    Misses (Grammar.word rule lexeme) (c.skip isSpace) := by
  intro a c' hmatches
  obtain ⟨b, hleads, -⟩ := hlexeme.eq_some_iff.mp hmatches.word
  obtain ⟨vs, hvs⟩ := h.head_of_leads hleads
  exact hts b vs hvs

end TakesLongest

theorem char_reaches {m : Mark} (h : Splits c.rest (.mark m :: us)) :
    Reaches (Pattern.char m.char) (c.skip isSpace) us := by
  obtain ⟨next, hleads, hus⟩ := h.exists_leads
  refine .cut (show _ = some ((), next) from ?_) hus
  rw [Cursor.skip_rest, hleads.split]
  exact if_pos rfl

theorem char_misses {m : Mark} {ts : List Terminal} (h : Splits c.rest ts)
    (hts : ∀ vs, ts ≠ .mark m :: vs) : Misses (Pattern.char m.char) (c.skip isSpace) := by
  intro u c' hmatches
  obtain ⟨vs, hvs⟩ := h.head_of_leads (char_sound hmatches)
  exact hts vs hvs

theorem keyword_reaches {rule : Rule} {k : String} {s : Spelling k}
    (h : Splits c.rest (s.terminal :: us)) :
    Reaches (Grammar.word rule (keyword k)) (c.skip isSpace) us := by
  obtain ⟨next, hleads, hus⟩ := h.exists_leads
  exact .word (keyword_of_leads s.spelled hleads hus.head_ne_point) hus

theorem keyword_misses {rule : Rule} {k : String} (hk : SmallLetters k) {ts : List Terminal}
    (h : Splits c.rest ts) (hts : Avoids [k] ts) :
    Misses (Grammar.word rule (keyword k)) (c.skip isSpace) := by
  intro u c' hmatches
  obtain ⟨s, hs⟩ := keywordWord_sound hk hmatches
  obtain ⟨vs, rfl⟩ := h.head_of_leads hs
  exact hts _ rfl k (.head _) s.spells

theorem comparisonOp_reaches {op : Operator} (hop : op ∈ comparisons) {kw : Spelling op.keyword}
    (h : Splits c.rest (kw.terminal :: us)) :
    Reaches (Grammar.word .cmpOp comparisonOp) (c.skip isSpace) us := by
  obtain ⟨next, hleads, hus⟩ := h.exists_leads
  have hkeyword := keyword_of_leads kw.spelled hleads hus.head_ne_point
  cases hfound : comparisonOp (skip c.rest) with
  | none =>
    have := List.findSome?_eq_none_iff.mp hfound op hop
    rw [hkeyword] at this
    cases this
  | some found =>
    obtain ⟨op', rest⟩ := found
    obtain ⟨-, s, hs⟩ := comparisonOp_sound hfound
    obtain ⟨-, rfl⟩ := hleads.unique hs
    exact .word hfound hus

theorem boolLiteral_reaches {k : Constant} {kw : Spelling k.keyword} (hk : k ≠ .null)
    (h : Splits c.rest (kw.terminal :: us)) :
    Reaches (Grammar.word .boolLit boolLiteral) (c.skip isSpace) us := by
  obtain ⟨next, hleads, hus⟩ := h.exists_leads
  have hkeyword := keyword_of_leads kw.spelled hleads hus.head_ne_point
  have hfound : ∃ b, boolLiteral (skip c.rest) = some (b, next) := by
    cases k with
    | true =>
      have htrue : keyword "true" (skip c.rest) = some ((), next) := hkeyword
      exact ⟨true, by rw [boolLiteral, htrue]⟩
    | false =>
      have hfalse : keyword "false" (skip c.rest) = some ((), next) := hkeyword
      cases htrue : keyword "true" (skip c.rest) with
      | none =>
        refine ⟨false, ?_⟩
        rw [boolLiteral, htrue, hfalse]
        rfl
      | some found =>
        obtain ⟨w, hspelled, hw⟩ := keyword_sound (by decide) htrue
        obtain ⟨hsame, -⟩ := hleads.unique hw
        have hspells : kw.terminal.Spells "true" := hsame ▸ hspelled
        exact absurd (spells_inj kw.spells hspells) (by decide)
    | null => exact absurd rfl hk
  obtain ⟨b, hb⟩ := hfound
  exact .word hb hus

theorem scalar_reaches {s : Scalar} (h : Splits c.rest (s.terminal :: us)) :
    Reaches Grammar.scalar (c.skip isSpace) us := by
  refine Reaches.map (f := Token.mk _) ?_
  cases s with
  | string ps => exact .orElse_left (.map (stringLiteral_takesLongest.reaches h))
  | number n =>
    exact .orElse_right (stringLiteral_takesLongest.misses h nofun).map
      (.orElse_left (.map (numberLiteral_takesLongest.reaches h)))
  | constant k kw =>
    refine .orElse_right (stringLiteral_takesLongest.misses h nofun).map
      (.orElse_right (numberLiteral_takesLongest.misses h nofun).map ?_)
    by_cases hk : k = .null
    · subst hk
      refine .orElse_right (Misses.map (fun b c' hmatches => ?_)) (.map (keyword_reaches h))
      obtain ⟨k', s, hleads, hliteral⟩ := boolLiteral_sound hmatches.word
      obtain ⟨vs, hvs⟩ := h.head_of_leads hleads
      have hterminal : kw.terminal = s.terminal := (List.cons.inj hvs).1
      cases Constant.keyword_inj (spells_inj kw.spells (hterminal ▸ s.spells))
      cases hliteral
    · exact .orElse_left (.map (boolLiteral_reaches hk h))

/-! Lists and conditions. -/

theorem items_chain (s : Scalar) (items : List Scalar) :
    Chain (fun ts => ∃ s : Scalar, ts = [s.terminal]) (fun t => t = .mark .comma)
      (itemsYield (s :: items)) := by
  induction items generalizing s with
  | nil => exact .last ⟨s, rfl⟩
  | cons s' items ih =>
    have hs : ∃ s' : Scalar, [s.terminal] = [s'.terminal] := ⟨s, rfl⟩
    refine Chain.more hs ?_ (ih s')
    rfl

theorem list_reaches (items : List Scalar)
    (h : Splits c.rest (.mark .openBracket :: (itemsYield items ++ .mark .closeBracket :: us))) :
    Reaches Grammar.list (c.skip isSpace) us := by
  refine .named (.map (.spaced (char_reaches (m := .openBracket) h) (fun h => ?_)))
  refine .spaced ?_ (char_reaches (m := .closeBracket))
  cases items with
  | nil =>
    refine .orElse_right (fun tokens c' hmatches => ?_)
      ⟨[], _, fun t => ⟨t, rfl⟩, cuts_skip_iff.mpr h⟩
    obtain ⟨s, items, hcuts, -⟩ := items_sound hmatches.separated
    obtain ⟨vs, hvs, -⟩ := h.exists_append (cuts_skip_iff.mp hcuts)
    exact s.terminal_ne_mark _ (List.cons.inj hvs).1.symm
  | cons s items =>
    refine .orElse_left (.separated (fun _ => True) ?_ ?_ ?_ trivial ?_ (items_chain s items) h)
    · rintro _ vs c ⟨s, rfl⟩ - h
      exact scalar_reaches h
    · rintro _ vs c rfl h
      exact char_reaches (m := .comma) h
    · exact fun _ => trivial
    · exact fun h => char_misses (m := .comma) h nofun

theorem membership_misses {k : Condition} (hk : k.op ≠ .within)
    (h : Splits c.rest (k.yield ++ us)) : Misses Grammar.membership (c.skip isSpace) := by
  intro d c' hmatches
  obtain ⟨k', hk', hcuts, -⟩ := membership_sound hmatches
  obtain ⟨vs, hvs, -⟩ := h.exists_append (cuts_skip_iff.mp hcuts)
  exact hk ((Condition.append_inj hvs).1 ▸ hk')

theorem presence_misses {k : Condition} (hk : k.op ≠ .present)
    (h : Splits c.rest (k.yield ++ us)) : Misses Grammar.presence (c.skip isSpace) := by
  intro d c' hmatches
  obtain ⟨k', hk', hcuts, -⟩ := presence_sound hmatches
  obtain ⟨vs, hvs, -⟩ := h.exists_append (cuts_skip_iff.mp hcuts)
  exact hk ((Condition.append_inj hvs).1 ▸ hk')

theorem condition_reaches {k : Condition} (h : Splits c.rest (k.yield ++ us)) :
    Reaches (Pattern.orElse Grammar.membership (Pattern.orElse Grammar.presence Grammar.comparison))
      (c.skip isSpace) us := by
  cases k with
  | within w kw items =>
    refine .orElse_left (.named (.map (.spaced (path_takesLongest.reaches h) (fun h => ?_))))
    refine .spaced (keyword_reaches (s := kw) h) (fun h => list_reaches items ?_)
    simpa [Condition.operand] using h
  | present w kw =>
    have hwithin : Operator.present ≠ .within := by decide
    refine .orElse_right (membership_misses (k := .present w kw) hwithin h) (.orElse_left ?_)
    exact .named (.map (.spaced (path_takesLongest.reaches h) (keyword_reaches (s := kw))))
  | compare w op hop kw value =>
    have hwithin : op ≠ .within := fun h => absurd hop (h ▸ by decide)
    have hpresent : op ≠ .present := fun h => absurd hop (h ▸ by decide)
    refine .orElse_right (membership_misses (k := .compare w op hop kw value) hwithin h)
      (.orElse_right (presence_misses (k := .compare w op hop kw value) hpresent h) ?_)
    refine .named (.map (.spaced (path_takesLongest.reaches h) (fun h => ?_)))
    exact .spaced (comparisonOp_reaches hop h) (scalar_reaches (s := value))

/-! Factors, operands and alternatives. -/

/-- The pattern matches where there is a factor of so many terminals at most. -/
def ReachesFactor (p : Pattern Draft) (bound : Nat) : Prop :=
  ∀ {f : Factor} {us : List Terminal} {c : Cursor}, f.yield.length ≤ bound →
    Avoids operatorWords us → Splits c.rest (f.yield ++ us) → Reaches p (c.skip isSpace) us

theorem Operands.chain {bound : Nat} : ∀ (t : Operands), t.yield.length ≤ bound →
    Chain (fun ts => ∃ f : Factor, f.yield = ts ∧ ts.length ≤ bound)
      (fun t => ∃ kw : Spelling "and", kw.terminal = t) t.yield
  | .last f, h => .last ⟨f, rfl, h⟩
  | .more f kw rest, h => by
    rw [Operands.yield, List.length_append, List.length_cons] at h
    exact .more ⟨f, rfl, by omega⟩ ⟨kw, rfl⟩ (Operands.chain rest (by omega))

theorem Alternatives.chain {bound : Nat} : ∀ (d : Alternatives), d.yield.length ≤ bound →
    Chain (fun ts => ∃ t : Operands, t.yield = ts ∧ ts.length ≤ bound)
      (fun t => ∃ kw : Spelling "or", kw.terminal = t) d.yield
  | .last t, h => .last ⟨t, rfl, h⟩
  | .more t kw rest, h => by
    rw [Alternatives.yield, List.length_append, List.length_cons] at h
    exact .more ⟨t, rfl, by omega⟩ ⟨kw, rfl⟩ (Alternatives.chain rest (by omega))

theorem term_reaches {p : Pattern Draft} {bound : Nat} (hp : ReachesFactor p bound) {t : Operands}
    (ht : t.yield.length ≤ bound) (hus : Avoids ("and" :: operatorWords) us)
    (h : Splits c.rest (t.yield ++ us)) : Reaches (Grammar.term p) (c.skip isSpace) us := by
  refine .named (.map (.separated (Avoids operatorWords) ?_ ?_ ?_ hus.of_cons ?_ (t.chain ht) h))
  · rintro _ vs c ⟨f, rfl, hf⟩ hvs h
    exact hp hf hvs h
  · rintro _ vs c ⟨kw, rfl⟩ h
    exact keyword_reaches h
  · rintro _ vs ⟨kw, rfl⟩
    exact avoids_of_spells kw.spells (by decide)
  · exact fun h => keyword_misses (by decide) h (fun t ht k hk => hus t ht k (by simp_all))

theorem expr_reaches {p : Pattern Draft} {bound : Nat} (hp : ReachesFactor p bound) {d : Alternatives}
    (hd : d.yield.length ≤ bound) (hus : Avoids ("or" :: "and" :: operatorWords) us)
    (h : Splits c.rest (d.yield ++ us)) : Reaches (Grammar.expr p) (c.skip isSpace) us := by
  refine .named (.map (.separated (Avoids ("and" :: operatorWords)) ?_ ?_ ?_ hus.of_cons ?_
    (d.chain hd) h))
  · rintro _ vs c ⟨t, rfl, ht⟩ hvs h
    exact term_reaches hp ht hvs h
  · rintro _ vs c ⟨kw, rfl⟩ h
    exact keyword_reaches h
  · rintro _ vs ⟨kw, rfl⟩
    exact avoids_of_spells kw.spells (by decide)
  · exact fun h => keyword_misses (by decide) h (fun t ht k hk => hus t ht k (by simp_all))

/-- A path before an operator is not taken for a negation. -/
theorem negation_misses_condition {p : Pattern Draft} (hp : FindsFactor p) {k : Condition}
    (hus : Avoids operatorWords us) (h : Splits c.rest (k.yield ++ us)) :
    Misses (Grammar.negation p) (c.skip isSpace) := by
  intro d c' hmatches
  obtain ⟨kw, f, hcuts, -⟩ := negation_sound hp hmatches
  obtain ⟨vs, hvs, -⟩ := h.exists_append (cuts_skip_iff.mp hcuts)
  exact Factor.not_operator_first k.operator_spells (k.operand_avoids hus) (List.cons.inj hvs).2.symm

theorem negation_misses_group {p : Pattern Draft} {ts : List Terminal}
    (h : Splits c.rest (.mark .openParen :: ts)) : Misses (Grammar.negation p) (c.skip isSpace) := by
  intro d c' hmatches
  obtain ⟨_, hfound, -⟩ := hmatches.named.map
  obtain ⟨_, hnot, -⟩ := hfound.spaced
  exact keyword_misses (by decide) h avoids_mark _ _ hnot

theorem group_misses {p : Pattern Draft} {w : Word} {ts : List Terminal}
    (h : Splits c.rest (.word w :: ts)) : Misses (Grammar.group p) (c.skip isSpace) := by
  intro d c' hmatches
  obtain ⟨_, hfound, -⟩ := hmatches.named.map
  obtain ⟨_, hopen, -⟩ := hfound.spaced
  exact char_misses (m := .openParen) h nofun _ _ hopen

/-- The depth allows for every factor that has no more terminals than it is deep. -/
theorem factor_reaches (depth : Nat) : ReachesFactor (Grammar.factor depth) depth := by
  induction depth with
  | zero =>
    intro f us c hf
    cases f <;> exact absurd hf (Nat.not_succ_le_zero _)
  | succ depth ih =>
    intro f us c hf hus h
    cases f with
    | condition k =>
      exact .orElse_right (negation_misses_condition (factor_sound depth) hus h)
        (.orElse_right (group_misses h) (condition_reaches h))
    | not kw f =>
      refine .orElse_left (.named (.map (.spaced (keyword_reaches (s := kw) h) ?_)))
      exact ih (Nat.le_of_succ_le_succ hf) hus
    | group inner =>
      rw [Factor.yield, List.length_cons, List.length_append] at hf
      rw [Factor.yield, List.cons_append, List.append_assoc] at h
      refine .orElse_right (negation_misses_group h) (.orElse_left (.named (.map ?_)))
      refine .spaced (char_reaches (m := .openParen) h)
        (fun h => .spaced ?_ (char_reaches (m := .closeParen)))
      exact expr_reaches ih (by omega) avoids_mark h

theorem query_reaches {d : Alternatives} (h : Splits c.rest d.yield) :
    Reaches (Grammar.query c.rest.length) c [] := by
  have hlength : d.yield.length ≤ c.rest.length + 1 := Nat.le_succ_of_le h.length_le
  have hexpr :
      Reaches (Pattern.after isSpace (Grammar.expr (Grammar.factor (c.rest.length + 1)))) c [] :=
    .after (expr_reaches (factor_reaches _) hlength avoids_nil (by rwa [List.append_nil]))
  refine .named (.map (.spaced hexpr (fun h => .word (show _ = some ((), []) from ?_) rfl)))
  rw [Cursor.skip_rest, show skip _ = [] from h]

end FlagGovernance.Query
