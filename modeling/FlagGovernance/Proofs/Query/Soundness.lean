import FlagGovernance.Query.Parse
import FlagGovernance.Proofs.Refusal
import FlagGovernance.Proofs.Query.Literals
import FlagGovernance.Proofs.Query.Derivation
import FlagGovernance.Proofs.Query.Matching
/-
What is matched has a derivation.

Wherever a pattern of the grammar matches, it has taken the leaves of a derivation
off the text, and its draft has the tree of that derivation unless a string among
the leaves holds half of a surrogate pair.
-/

namespace FlagGovernance.Query

/-- No string among the terminals holds half of a surrogate pair. -/
def AllClean (ts : List Terminal) : Prop := ∀ t ∈ ts, t.Clean

@[simp] theorem allClean_nil : AllClean [] := nofun

@[simp] theorem allClean_cons {t : Terminal} {ts : List Terminal} :
    AllClean (t :: ts) ↔ t.Clean ∧ AllClean ts :=
  List.forall_mem_cons

@[simp] theorem allClean_append {ts us : List Terminal} :
    AllClean (ts ++ us) ↔ AllClean ts ∧ AllClean us :=
  List.forall_mem_append

@[simp] theorem clean_mark {m : Mark} : (Terminal.mark m).Clean := trivial

@[simp] theorem clean_word {w : Word} : (Terminal.word w).Clean := trivial

@[simp] theorem Spelling.clean {k : String} (s : Spelling k) : s.terminal.Clean := trivial

/-- The draft resolves just when the terminals are clean, and then to the tree. -/
def StandsFor (d : Draft) (ts : List Terminal) (e : Expr) : Prop :=
  AnswersIf (d.resolve Token.literal) (AllClean ts) e

def StandFor (ds : List Draft) (ts : List Terminal) (es : List Expr) : Prop :=
  AnswersIf (ExprOf.resolveAll Token.literal ds) (AllClean ts) es

namespace StandFor

variable {d : Draft} {ds : List Draft} {ts us : List Terminal} {e : Expr} {es : List Expr}

theorem nil : StandFor [] [] [] := by
  rw [StandFor, ExprOf.resolveAll]
  exact AnswersIf.ok.of_iff (iff_true_intro allClean_nil)

theorem cons (h : StandsFor d ts e) (hs : StandFor ds us es) :
    StandFor (d :: ds) (ts ++ us) (e :: es) := by
  have hrest : AnswersIf (ExprOf.resolveAll Token.literal ds >>= fun rest => pure (e :: rest))
      (AllClean us ∧ True) (e :: es) := hs.bind .ok
  rw [StandFor, ExprOf.resolveAll]
  exact (AnswersIf.bind h hrest).of_iff (by rw [allClean_append, and_true])

theorem singleton (h : StandsFor d ts e) : StandFor [d] ts [e] := by
  have := cons h nil
  rwa [List.append_nil] at this

theorem or (h : StandFor ds ts es) : StandsFor (.or ds) ts (.or es) := by
  rw [StandsFor, ExprOf.resolve]
  exact h.map

theorem and (h : StandFor ds ts es) : StandsFor (.and ds) ts (.and es) := by
  rw [StandsFor, ExprOf.resolve]
  exact h.map

theorem not (h : StandsFor d ts e) : StandsFor (.not d) ts (.not e) := by
  rw [StandsFor, ExprOf.resolve]
  exact h.map

end StandFor

/-! Terminals. -/

theorem leads_mark {m : Mark} {text rest : List Char} (h : text = m.char :: rest) :
    Leads (.mark m) text rest := by
  refine ⟨h, fun t rest' ht => ?_⟩
  have hkind := Terminal.kind_eq_of_append_eq (t := .mark m) (r := rest) (h.symm.trans ht)
  cases t with
  | mark m' => exact Nat.le_refl _
  | _ => cases hkind

variable {c c' : Cursor}

theorem char_sound {m : Mark} {u : Unit} (h : Matches (Pattern.char m.char) c u c') :
    Leads (.mark m) c.rest c'.rest := by
  have hcut := h.cut
  split at hcut
  next => cases hcut
  next rest hrest =>
    split at hcut
    next hc =>
      cases hcut
      exact leads_mark (hc ▸ hrest)
    next => cases hcut

theorem keywordWord_sound {rule : Rule} {k : String} (hk : SmallLetters k) {u : Unit}
    (h : Matches (Grammar.word rule (keyword k)) c u c') :
    ∃ s : Spelling k, Leads s.terminal c.rest c'.rest := by
  obtain ⟨w, hspelled, hleads⟩ := keyword_sound hk h.word
  exact ⟨⟨w, hspelled⟩, hleads⟩

theorem path_sound {s : String} (h : Matches (Grammar.word .path path) c s c') :
    ∃ w, Leads (.word w) c.rest c'.rest ∧ String.ofList w.text = s :=
  path_takesLongest.eq_some_iff.mp h.word

theorem keyword_smallLetters (op : Operator) : SmallLetters op.keyword := by
  cases op <;> decide

theorem comparisonOp_sound {text rest : List Char} {op : Operator}
    (h : comparisonOp text = some (op, rest)) :
    op ∈ comparisons ∧ ∃ s : Spelling op.keyword, Leads s.terminal text rest := by
  obtain ⟨_, hop, hfound⟩ := List.exists_of_findSome?_eq_some h
  obtain ⟨found, hkeyword, hpair⟩ := Option.map_eq_some_iff.mp hfound
  cases hpair
  obtain ⟨w, hspelled, hleads⟩ := keyword_sound (keyword_smallLetters op) hkeyword
  exact ⟨hop, ⟨w, hspelled⟩, hleads⟩

theorem boolLiteral_sound {text rest : List Char} {b : Bool}
    (h : boolLiteral text = some (b, rest)) :
    ∃ (k : Constant) (s : Spelling k.keyword), Leads s.terminal text rest ∧ k.literal = .bool b := by
  rw [boolLiteral] at h
  split at h
  next hkeyword =>
    cases h
    obtain ⟨w, hspelled, hleads⟩ := keyword_sound (by decide) hkeyword
    exact ⟨.true, ⟨w, hspelled⟩, hleads, rfl⟩
  next =>
    obtain ⟨found, hkeyword, hpair⟩ := Option.map_eq_some_iff.mp h
    cases hpair
    obtain ⟨w, hspelled, hleads⟩ := keyword_sound (by decide) hkeyword
    exact ⟨.false, ⟨w, hspelled⟩, hleads, rfl⟩

theorem answersIf_literal {offset : Nat} {v : Option Literal} {p : Prop} {l : Literal}
    (h : ∀ l', v = some l' ↔ p ∧ l = l') : AnswersIf (Token.literal ⟨offset, v⟩) p l := by
  intro l'
  rw [← h l']
  cases v with
  | none => exact iff_of_false nofun nofun
  | some l => exact (Except.ok.injEq l l').to_iff.trans (Option.some.injEq l l').to_iff.symm

theorem scalar_sound {token : Token} (h : Matches Grammar.scalar c token c') :
    ∃ s : Scalar, Leads s.terminal c.rest c'.rest ∧
      AnswersIf token.literal s.terminal.Clean s.literal := by
  have always {l : Literal} {s : Scalar} (hclean : s.terminal.Clean) (hl : s.literal = l) :
      AnswersIf (Token.literal ⟨c.offset, some l⟩) s.terminal.Clean s.literal :=
    answersIf_literal (fun l' => by rw [hl, and_iff_right hclean, Option.some.injEq])
  obtain ⟨v, hv, rfl⟩ := Matches.map (f := Token.mk c.offset) h
  rcases hv.orElse with hv | hv
  · obtain ⟨_, hbody, rfl⟩ := hv.map
    obtain ⟨ps, hleads, rfl⟩ := stringLiteral_takesLongest.eq_some_iff.mp hbody.word
    refine ⟨.string ps, hleads, answersIf_literal (fun l' => ?_)⟩
    rw [Option.map_eq_some_iff]
    simp only [unescape_bodyText_eq_some_iff]
    constructor
    · rintro ⟨_, ⟨hclean, rfl⟩, rfl⟩
      exact ⟨hclean, rfl⟩
    · rintro ⟨hclean, rfl⟩
      exact ⟨_, ⟨hclean, rfl⟩, rfl⟩
  rcases hv.orElse with hv | hv
  · obtain ⟨_, hnumber, rfl⟩ := hv.map
    obtain ⟨n, hleads, rfl⟩ := numberLiteral_takesLongest.eq_some_iff.mp hnumber.word
    exact ⟨.number n, hleads, always trivial rfl⟩
  rcases hv.orElse with hv | hv
  · obtain ⟨_, hbool, rfl⟩ := hv.map
    obtain ⟨k, s, hleads, hk⟩ := boolLiteral_sound hbool.word
    exact ⟨.constant k s, hleads, always s.clean hk⟩
  · obtain ⟨_, hnull, rfl⟩ := hv.map
    obtain ⟨s, hleads⟩ := keywordWord_sound (by decide) hnull
    exact ⟨.constant .null s, hleads, always s.clean rfl⟩

/-! Lists and conditions. -/

theorem answersIf_mapM_nil : AnswersIf ([].mapM Token.literal) (AllClean []) [] := by
  rw [List.mapM_nil]
  exact AnswersIf.ok.of_iff (iff_true_intro allClean_nil)

theorem answersIf_mapM_cons {token : Token} {tokens : List Token} {p q : Prop} {l : Literal}
    {ls : List Literal} (h : AnswersIf token.literal p l)
    (hs : AnswersIf (tokens.mapM Token.literal) q ls) :
    AnswersIf ((token :: tokens).mapM Token.literal) (p ∧ q) (l :: ls) := by
  have hrest : AnswersIf (tokens.mapM Token.literal >>= fun ls => pure (l :: ls)) (q ∧ True)
      (l :: ls) := hs.bind .ok
  rw [List.mapM_cons]
  exact (AnswersIf.bind h hrest).of_iff (by rw [and_true])

theorem items_sound {tokens : List Token}
    (h : Separated (Pattern.char ',') Grammar.scalar c tokens c') :
    ∃ s items, Cuts c.rest (itemsYield (s :: items)) c'.rest ∧
      AnswersIf (tokens.mapM Token.literal) (AllClean (itemsYield (s :: items)))
        ((s :: items).map Scalar.literal) := by
  induction h with
  | last ha =>
    obtain ⟨s, hleads, hs⟩ := scalar_sound ha
    refine ⟨s, [], hleads.cuts rfl, ?_⟩
    exact (answersIf_mapM_cons hs answersIf_mapM_nil).of_iff (by simp [itemsYield, furtherItems])
  | more ha hb _ ih =>
    obtain ⟨s, hleads, hs⟩ := scalar_sound ha
    obtain ⟨s', items, hcuts, hitems⟩ := ih
    refine ⟨s, s' :: items, hleads.cuts ?_, ?_⟩
    · exact (char_sound (m := .comma) hb).cuts_skip (cuts_skip_iff.mp hcuts)
    · exact (answersIf_mapM_cons hs hitems).of_iff (by simp [itemsYield, furtherItems])

theorem list_sound {tokens : List Token} (h : Matches Grammar.list c tokens c') :
    ∃ items,
      Cuts c.rest (.mark .openBracket :: (itemsYield items ++ [.mark .closeBracket])) c'.rest ∧
      AnswersIf (tokens.mapM Token.literal) (AllClean (itemsYield items))
        (items.map Scalar.literal) := by
  obtain ⟨⟨_, tokens, _⟩, hlist, rfl⟩ := h.named.map
  obtain ⟨c₁, hopen, hrest⟩ := hlist.spaced
  obtain ⟨c₂, hitems, hclose⟩ := hrest.spaced
  have hend : Cuts c₂.rest [.mark .closeBracket] c'.rest :=
    (char_sound (m := .closeBracket) hclose).cuts_skip rfl
  rcases hitems.orElse with hitems | ⟨_, _, hnone⟩
  · obtain ⟨s, items, hcuts, hs⟩ := items_sound hitems.separated
    exact ⟨s :: items, (char_sound (m := .openBracket) hopen).cuts
      ((cuts_skip_iff.mp hcuts).append hend), hs⟩
  · cases hnone
    exact ⟨[], (char_sound (m := .openBracket) hopen).cuts (cuts_skip_iff.mp hend),
      answersIf_mapM_nil⟩

theorem membership_sound {d : Draft} (h : Matches Grammar.membership c d c') :
    ∃ k : Condition, k.op = .within ∧ Cuts c.rest k.yield c'.rest ∧ StandsFor d k.yield k.expr := by
  obtain ⟨⟨s, _, tokens⟩, hfound, rfl⟩ := h.named.map
  obtain ⟨c₁, hpath, hrest⟩ := hfound.spaced
  obtain ⟨c₂, hin, hlist⟩ := hrest.spaced
  obtain ⟨w, hw, rfl⟩ := path_sound hpath
  obtain ⟨kw, hkw⟩ := keywordWord_sound (by decide) hin
  obtain ⟨items, hitems, hliterals⟩ := list_sound hlist
  refine ⟨.within w kw items, rfl, hw.cuts (hkw.cuts_skip (cuts_skip_iff.mp hitems)), ?_⟩
  rw [StandsFor, ExprOf.resolve]
  exact hliterals.map.of_iff (by simp [Condition.yield, Condition.operator, Condition.operand])

theorem presence_sound {d : Draft} (h : Matches Grammar.presence c d c') :
    ∃ k : Condition, k.op = .present ∧ Cuts c.rest k.yield c'.rest ∧ StandsFor d k.yield k.expr := by
  obtain ⟨⟨s, _⟩, hfound, rfl⟩ := h.named.map
  obtain ⟨c₁, hpath, hpr⟩ := hfound.spaced
  obtain ⟨w, hw, rfl⟩ := path_sound hpath
  obtain ⟨kw, hkw⟩ := keywordWord_sound (by decide) hpr
  refine ⟨.present w kw, rfl, hw.cuts (hkw.cuts_skip rfl), ?_⟩
  rw [StandsFor, ExprOf.resolve]
  exact AnswersIf.ok.of_iff (by simp [Condition.yield, Condition.operator, Condition.operand])

theorem comparison_sound {d : Draft} (h : Matches Grammar.comparison c d c') :
    ∃ k : Condition, Cuts c.rest k.yield c'.rest ∧ StandsFor d k.yield k.expr := by
  obtain ⟨⟨s, op, token⟩, hfound, rfl⟩ := h.named.map
  obtain ⟨c₁, hpath, hrest⟩ := hfound.spaced
  obtain ⟨c₂, hop, hscalar⟩ := hrest.spaced
  obtain ⟨w, hw, rfl⟩ := path_sound hpath
  obtain ⟨hcompares, kw, hkw⟩ := comparisonOp_sound hop.word
  obtain ⟨value, hvalue, hliteral⟩ := scalar_sound hscalar
  refine ⟨.compare w op hcompares kw value, hw.cuts (hkw.cuts_skip (hvalue.cuts_skip rfl)), ?_⟩
  rw [StandsFor, ExprOf.resolve]
  exact hliteral.map.of_iff (by simp [Condition.yield, Condition.operator, Condition.operand])

/-! Factors, operands and alternatives. -/

/-- Where the pattern matches there is a factor. -/
def FindsFactor (p : Pattern Draft) : Prop :=
  ∀ {c d c'}, Matches p c d c' →
    ∃ f : Factor, Cuts c.rest f.yield c'.rest ∧ StandsFor d f.yield f.expr

/-- Two operands and more are gathered under one node. -/
theorem Separated.gather_cons {β : Type} {separator : Pattern β} {item : Pattern Draft}
    {ds : List Draft} (h : Separated separator item c ds c') (join : List Draft → Draft) (d : Draft) :
    Grammar.gather join (d :: ds) = join (d :: ds) := by
  cases h <;> rfl

theorem operands_sound {p : Pattern Draft} (hp : FindsFactor p) {ds : List Draft}
    (h : Separated (Grammar.word .andOp (keyword "and")) p c ds c') :
    ∃ t : Operands, Cuts c.rest t.yield c'.rest ∧ StandFor ds t.yield t.exprs ∧
      StandsFor (Grammar.gather .and ds) t.yield t.expr := by
  induction h with
  | last ha =>
    obtain ⟨f, hcuts, hf⟩ := hp ha
    exact ⟨.last f, hcuts, .singleton hf, hf⟩
  | @more _ _ _ _ d _ ds ha hb has ih =>
    obtain ⟨f, hcuts, hf⟩ := hp ha
    obtain ⟨kw, hkw⟩ := keywordWord_sound (by decide) hb
    obtain ⟨rest, hrest, hds, -⟩ := ih
    have hall : StandFor (d :: ds) (Operands.more f kw rest).yield (f.expr :: rest.exprs) :=
      (StandFor.cons hf hds).of_iff (by simp [Operands.yield])
    refine ⟨.more f kw rest, hcuts.append (hkw.cuts_skip (cuts_skip_iff.mp hrest)), hall, ?_⟩
    rw [has.gather_cons]
    exact hall.and

theorem term_sound {p : Pattern Draft} (hp : FindsFactor p) {d : Draft}
    (h : Matches (Grammar.term p) c d c') :
    ∃ t : Operands, Cuts c.rest t.yield c'.rest ∧ StandsFor d t.yield t.expr := by
  obtain ⟨ds, hds, rfl⟩ := h.named.map
  obtain ⟨t, hcuts, -, ht⟩ := operands_sound hp hds.separated
  exact ⟨t, hcuts, ht⟩

theorem alternatives_sound {p : Pattern Draft} (hp : FindsFactor p) {ds : List Draft}
    (h : Separated (Grammar.word .orOp (keyword "or")) (Grammar.term p) c ds c') :
    ∃ d : Alternatives, Cuts c.rest d.yield c'.rest ∧ StandFor ds d.yield d.exprs ∧
      StandsFor (Grammar.gather .or ds) d.yield d.expr := by
  induction h with
  | last ha =>
    obtain ⟨t, hcuts, ht⟩ := term_sound hp ha
    exact ⟨.last t, hcuts, .singleton ht, ht⟩
  | @more _ _ _ _ d _ ds ha hb has ih =>
    obtain ⟨t, hcuts, ht⟩ := term_sound hp ha
    obtain ⟨kw, hkw⟩ := keywordWord_sound (by decide) hb
    obtain ⟨rest, hrest, hds, -⟩ := ih
    have hall : StandFor (d :: ds) (Alternatives.more t kw rest).yield (t.expr :: rest.exprs) :=
      (StandFor.cons ht hds).of_iff (by simp [Alternatives.yield])
    refine ⟨.more t kw rest, hcuts.append (hkw.cuts_skip (cuts_skip_iff.mp hrest)), hall, ?_⟩
    rw [has.gather_cons]
    exact hall.or

theorem expr_sound {p : Pattern Draft} (hp : FindsFactor p) {d : Draft}
    (h : Matches (Grammar.expr p) c d c') :
    ∃ a : Alternatives, Cuts c.rest a.yield c'.rest ∧ StandsFor d a.yield a.expr := by
  obtain ⟨ds, hds, rfl⟩ := h.named.map
  obtain ⟨a, hcuts, -, ha⟩ := alternatives_sound hp hds.separated
  exact ⟨a, hcuts, ha⟩

theorem negation_sound {p : Pattern Draft} (hp : FindsFactor p) {d : Draft}
    (h : Matches (Grammar.negation p) c d c') :
    ∃ (kw : Spelling "not") (f : Factor), Cuts c.rest (Factor.not kw f).yield c'.rest ∧
      StandsFor d (Factor.not kw f).yield (Factor.not kw f).expr := by
  obtain ⟨⟨_, d⟩, hfound, rfl⟩ := h.named.map
  obtain ⟨c₁, hnot, hfactor⟩ := hfound.spaced
  obtain ⟨kw, hkw⟩ := keywordWord_sound (by decide) hnot
  obtain ⟨f, hcuts, hf⟩ := hp hfactor
  exact ⟨kw, f, hkw.cuts (cuts_skip_iff.mp hcuts),
    (StandFor.not hf).of_iff (by simp [Factor.yield])⟩

theorem group_sound {p : Pattern Draft} (hp : FindsFactor p) {d : Draft}
    (h : Matches (Grammar.group p) c d c') :
    ∃ inner : Alternatives, Cuts c.rest (Factor.group inner).yield c'.rest ∧
      StandsFor d (Factor.group inner).yield (Factor.group inner).expr := by
  obtain ⟨⟨_, d, _⟩, hfound, rfl⟩ := h.named.map
  obtain ⟨c₁, hopen, hrest⟩ := hfound.spaced
  obtain ⟨c₂, hexpr, hclose⟩ := hrest.spaced
  obtain ⟨inner, hcuts, hinner⟩ := expr_sound hp hexpr
  have hend : Cuts c₂.rest [.mark .closeParen] c'.rest :=
    (char_sound (m := .closeParen) hclose).cuts_skip rfl
  exact ⟨inner, (char_sound (m := .openParen) hopen).cuts ((cuts_skip_iff.mp hcuts).append hend),
    hinner.of_iff (by simp [Factor.yield])⟩

theorem factor_sound (depth : Nat) : FindsFactor (Grammar.factor depth) := by
  induction depth with
  | zero =>
    rintro c d c' ⟨_, _, hnever⟩
    cases hnever
  | succ depth ih =>
    intro c d c' h
    rcases h.orElse with h | h
    · obtain ⟨kw, f, hf⟩ := negation_sound ih h
      exact ⟨.not kw f, hf⟩
    rcases h.orElse with h | h
    · obtain ⟨inner, hinner⟩ := group_sound ih h
      exact ⟨.group inner, hinner⟩
    rcases h.orElse with h | h
    · obtain ⟨k, -, hk⟩ := membership_sound h
      exact ⟨.condition k, hk⟩
    rcases h.orElse with h | h
    · obtain ⟨k, -, hk⟩ := presence_sound h
      exact ⟨.condition k, hk⟩
    · obtain ⟨k, hk⟩ := comparison_sound h
      exact ⟨.condition k, hk⟩

/-- A query that is matched falls into the leaves of a derivation. -/
theorem query_sound {length : Nat} {d : Draft} (h : Matches (Grammar.query length) c d c') :
    ∃ a : Alternatives, Splits c.rest a.yield ∧ StandsFor d a.yield a.expr := by
  obtain ⟨⟨d, _⟩, hfound, rfl⟩ := h.named.map
  obtain ⟨c₁, hexpr, hend⟩ := hfound.spaced
  obtain ⟨a, hcuts, ha⟩ := expr_sound (factor_sound _) hexpr.after
  refine ⟨a, ?_, ha⟩
  have hblank : skip c₁.rest = [] := by
    have hword := hend.word
    split at hword
    next hrest => exact hrest
    next => cases hword
  have hall := (cuts_skip_iff.mp hcuts).append (show Cuts c₁.rest [] [] from hblank)
  rwa [List.append_nil] at hall

end FlagGovernance.Query
