import FlagGovernance.Proofs.Query.Failing
import FlagGovernance.Proofs.Query.Parsing
import FlagGovernance.Proofs.Query.Truncation
import FlagGovernance.Proofs.Query.Viable
/-
Where an error is told.

Each rule of the grammar is tried only where the terminals before it are viable.  So the
text before the furthest failure, which is where an error is told, is the beginning of a
query: with a space and what is missing after it, it is read.
-/

namespace FlagGovernance.Query

/-! Each part of the grammar moves the cursor on. -/

theorem Leads.suffix {t : Terminal} {text rest : List Char} (h : Leads t text rest) :
    rest <:+ text :=
  ⟨t.text, h.split.symm⟩

/-- A lexeme that takes a terminal moves the cursor over it. -/
theorem word_advances {α : Type} {lexeme : Lexeme α}
    (htakes : ∀ {text a rest}, lexeme text = some (a, rest) → ∃ t, Leads t text rest)
    (rule : Rule) : Advances (Grammar.word rule lexeme) := by
  refine (Advances.cut fun text a rest htake => ?_).named rule
  obtain ⟨t, hleads⟩ := htakes htake
  exact hleads.suffix

theorem TakesLongest.advances {α β : Type} {lexeme : Lexeme α} {make : β → Terminal}
    {value : β → α} (h : TakesLongest lexeme make value) (rule : Rule) :
    Advances (Grammar.word rule lexeme) := by
  refine word_advances (fun htake => ?_) rule
  obtain ⟨b, hleads, -⟩ := h.eq_some_iff.mp htake
  exact ⟨make b, hleads⟩

theorem keyword_advances {k : String} (hk : SmallLetters k) (rule : Rule) :
    Advances (Grammar.word rule (keyword k)) := by
  refine word_advances (fun htake => ?_) rule
  obtain ⟨w, -, hleads⟩ := keyword_sound hk htake
  exact ⟨.word w, hleads⟩

theorem comparisonOp_advances : Advances (Grammar.word .cmpOp comparisonOp) := by
  refine word_advances (fun htake => ?_) .cmpOp
  obtain ⟨-, kw, hleads⟩ := comparisonOp_sound htake
  exact ⟨kw.terminal, hleads⟩

theorem boolLiteral_advances : Advances (Grammar.word .boolLit boolLiteral) := by
  refine word_advances (fun htake => ?_) .boolLit
  obtain ⟨k, kw, hleads, -⟩ := boolLiteral_sound htake
  exact ⟨kw.terminal, hleads⟩

theorem char_advances (d : Char) : Advances (Pattern.char d) := by
  refine Advances.cut fun text u rest htake => ?_
  split at htake
  · cases htake
  · next c text =>
    split at htake
    · cases htake
      exact List.suffix_cons c rest
    · cases htake

theorem scalar_advances : Advances Grammar.scalar := by
  have hvalue := ((stringLiteral_takesLongest.advances .stringLit).map
      fun body => (unescape body).map (fun cs => Literal.string (String.ofList cs))).orElse
    (((numberLiteral_takesLongest.advances .numberLit).map fun d => some (.number d)).orElse
      ((boolLiteral_advances.map fun b => some (.bool b)).orElse
        ((keyword_advances (k := "null") (by decide) .nullLit).map fun _ => some .null)))
  exact fun c => hvalue.map (Token.mk c.offset) c

theorem optionally_advances {α : Type} {p : Pattern (List α)} (hp : Advances p) :
    Advances (Grammar.optionally p) := by
  refine hp.orElse ?_
  rintro c a c' ⟨t, t', ht⟩
  cases ht
  exact Follows.refl c

theorem list_advances : Advances Grammar.list :=
  (((char_advances '[').spaced ((optionally_advances
    (scalar_advances.separated (char_advances ','))).spaced (char_advances ']'))).map _).named _

theorem membership_advances : Advances Grammar.membership :=
  (((path_takesLongest.advances .path).spaced
    ((keyword_advances (by decide) .inOp).spaced list_advances)).map _).named _

theorem presence_advances : Advances Grammar.presence :=
  (((path_takesLongest.advances .path).spaced (keyword_advances (by decide) .prOp)).map _).named _

theorem comparison_advances : Advances Grammar.comparison :=
  (((path_takesLongest.advances .path).spaced
    (comparisonOp_advances.spaced scalar_advances)).map _).named _

section Factors

variable {p : Pattern Draft} (hp : Advances p)

include hp

theorem term_advances : Advances (Grammar.term p) :=
  ((hp.separated (keyword_advances (by decide) .andOp)).map _).named _

theorem expr_advances : Advances (Grammar.expr p) :=
  (((term_advances hp).separated (keyword_advances (by decide) .orOp)).map _).named _

theorem negation_advances : Advances (Grammar.negation p) :=
  (((keyword_advances (by decide) .notOp).spaced hp).map _).named _

theorem group_advances : Advances (Grammar.group p) :=
  (((char_advances '(').spaced ((expr_advances hp).spaced (char_advances ')'))).map _).named _

end Factors

theorem factor_advances (depth : Nat) : Advances (Grammar.factor depth) := by
  induction depth with
  | zero =>
      rintro c d c' ⟨t, t', hnever⟩
      cases hnever
  | succ depth ih =>
      exact (negation_advances ih).orElse ((group_advances ih).orElse
        (membership_advances.orElse (presence_advances.orElse comparison_advances)))

/-! Cursors behind terminals, and places up to which a text can be completed. -/

/-- The cursor has come from the start of the text over the terminals. -/
structure Stands (text : List Char) (ts : List Terminal) (c : Cursor) : Prop where
  follows : Follows ⟨0, text⟩ c
  cuts : Cuts text ts c.rest

/-- No string that is read from the left of the text holds half of a surrogate pair. -/
def FreeOfHalves (text : List Char) : Prop := ∀ ts rest, Cuts text ts rest → AllClean ts

theorem Cuts.infix_of_mem {text rest : List Char} {ts : List Terminal} (h : Cuts text ts rest)
    {t : Terminal} (ht : t ∈ ts) : t.text <:+: text := by
  induction ts generalizing text with
  | nil => cases ht
  | cons first ts ih =>
      obtain ⟨next, hleads, hcuts⟩ := h
      have hskip : skip text <:+: text := (List.dropWhile_suffix isSpace).isInfix
      rcases List.mem_cons.mp ht with rfl | hmem
      · exact List.IsInfix.trans ⟨[], next, hleads.split.symm⟩ hskip
      · exact (ih hcuts hmem).trans (hleads.suffix.isInfix.trans hskip)

/-- A text in which no escape of half a surrogate pair is written, behind whatever it may
stand, is free of halves. -/
theorem freeOfHalves_of_unwritten {text : List Char}
    (h : ∀ a b c d code, ['\\', 'u', a, b, c, d] <:+: text →
      Json.hexUnit? [a, b, c, d] = some (code, []) → ¬ (0xD800 ≤ code ∧ code < 0xE000)) :
    FreeOfHalves text := by
  intro ts rest hcuts t ht
  have hwritten := hcuts.infix_of_mem ht
  cases t with
  | quoted ps =>
      intro p hp hhalf
      cases p with
      | unit a b c d code hcode =>
          refine h a b c d code ?_ hcode hhalf
          have hbody : ['\\', 'u', a, b, c, d] <:+: bodyText ps := by
            obtain ⟨before, after, rfl⟩ := List.mem_iff_append.mp hp
            exact ⟨bodyText before, bodyText after, by simp [bodyText, Piece.text]⟩
          exact hbody.trans (List.IsInfix.trans ⟨['"'], ['"'], rfl⟩ hwritten)
      | _ => exact hhalf
  | _ => trivial

/-- The text before the place is the beginning of a query. -/
def Completable (text : List Char) (offset : Nat) : Prop :=
  offset ≤ text.length ∧
    ∃ more e, parse (String.ofList (text.take offset) ++ more) = .ok e

namespace Stands

variable {text : List Char} {ts : List Terminal} {c : Cursor}

theorem start (text : List Char) : Stands text [] ⟨0, text⟩ := ⟨Follows.refl _, rfl⟩

theorem skip (h : Stands text ts c) : Stands text ts (c.skip isSpace) where
  follows := h.follows.trans (follows_skip c)
  cuts := by
    have hspaces : Cuts c.rest [] (Query.skip c.rest) := (skip_skip _).symm
    simpa using h.cuts.append hspaces

theorem move {α : Type} {p : Pattern α} (h : Stands text ts c) (hp : Advances p) {a : α}
    {c' : Cursor} (hmatch : Matches p (c.skip isSpace) a c') {us : List Terminal}
    (hcuts : Cuts (c.skip isSpace).rest us c'.rest) : Stands text (ts ++ us) c' :=
  ⟨h.skip.follows.trans (hp _ _ _ hmatch), h.skip.cuts.append hcuts⟩

theorem lead {α : Type} {p : Pattern α} (h : Stands text ts c) (hp : Advances p) {a : α}
    {c' : Cursor} (hmatch : Matches p (c.skip isSpace) a c') {t : Terminal}
    (hleads : Leads t (c.skip isSpace).rest c'.rest) : Stands text (ts ++ [t]) c' :=
  h.move hp hmatch (hleads.cuts rfl)

/-- Behind viable terminals the text can be completed. -/
theorem completable (h : Stands text ts c) (hfree : FreeOfHalves text) (hts : Viable ts) :
    Completable text (c.skip isSpace).offset := by
  obtain ⟨⟨taken, htext, hoffset⟩, hcuts⟩ := h.skip
  obtain ⟨us, hus, d, hd⟩ := hts
  have hclean : AllClean d.yield := by
    rw [hd]
    exact allClean_append.mpr ⟨hfree ts _ hcuts, hus⟩
  change text = taken ++ (c.skip isSpace).rest at htext
  rw [htext] at hcuts
  have hsplits : Splits (taken ++ ' ' :: spelled us) d.yield := by
    rw [hd]
    exact hcuts.truncate (skip_skip c.rest) (splits_spelled us)
  have htake : text.take (c.skip isSpace).offset = taken := by simp [hoffset, htext]
  refine ⟨by simp [hoffset, htext], String.ofList (' ' :: spelled us), d.expr, ?_⟩
  rw [htake]
  exact parse_of_splits (by simpa using hsplits) hclean

end Stands

theorem completable_zero (text : List Char) : Completable text 0 := by
  obtain ⟨us, hus, d, hd⟩ := Takes.nil.operands.factor.condition.viable
  have hyield : d.yield = us := hd
  refine ⟨Nat.zero_le _, String.ofList (spelled us), d.expr, parse_of_splits ?_ ?_⟩
  · simpa [hyield] using splits_spelled us
  · rwa [hyield]

/-! Each rule is tried behind viable terminals. -/

theorem scalar_fails {good : Nat → Prop} {c : Cursor} (hc : good c.offset) :
    FailsIn good Grammar.scalar c := by
  have hvalue := FailsIn.map (f := Token.mk c.offset) <|
    ((FailsIn.word .stringLit stringLiteral hc).map
      (f := fun body => (unescape body).map (fun cs => Literal.string (String.ofList cs)))).orElse
    (((FailsIn.word .numberLit numberLiteral hc).map
      (f := fun d => some (.number d))).orElse
      (((FailsIn.word .boolLit boolLiteral hc).map
        (f := fun b => some (.bool b))).orElse
        ((FailsIn.word .nullLit (keyword "null") hc).map
          (f := fun _ => some .null))))
  exact hvalue

/-- A pattern for factors: it finds them, moves the cursor on, and fails only at places
up to which the text can be completed. -/
structure ExploresFactors (text : List Char) (p : Pattern Draft) : Prop where
  finds : FindsFactor p
  advances : Advances p
  fails : ∀ {ts c}, Takes Factor.yield ts → Stands text ts c →
    FailsIn (Completable text) p (c.skip isSpace)

section Fails

variable {text : List Char} (hfree : FreeOfHalves text) {ts : List Terminal} {c : Cursor}

include hfree

/-- Phrases and separators in turn, where a phrase may stand first and after each
separator. -/
theorem separated_fails {α β γ : Type} {separator : Pattern β} {item : Pattern γ}
    (yield : α → List Terminal) (Open : List Terminal → Prop) (Separator : Terminal → Prop)
    (hitem : ∀ {ts c}, Open ts → Stands text ts c →
      FailsIn (Completable text) item (c.skip isSpace))
    (hfinds : ∀ {c a c'}, Matches item c a c' → ∃ phrase, Cuts c.rest (yield phrase) c'.rest)
    (hadvances : Advances item)
    (hseparator : ∀ {c}, Completable text c.offset → FailsIn (Completable text) separator c)
    (hleads : ∀ {c b c'}, Matches separator c b c' → ∃ t, Separator t ∧ Leads t c.rest c'.rest)
    (hmoves : Advances separator)
    (hviable : ∀ {ts}, Open ts → ∀ phrase, Viable (ts ++ yield phrase))
    (hopen : ∀ {ts t}, Open ts → ∀ phrase, Separator t → Open (ts ++ yield phrase ++ [t]))
    (hts : Open ts) (hc : Stands text ts c) :
    FailsIn (Completable text) (Grammar.separated separator item) (c.skip isSpace) := by
  refine FailsIn.separated (fun c => ∃ ts, Open ts ∧ Stands text ts c)
    (fun c => ∃ ts phrase, Open ts ∧ Stands text (ts ++ yield phrase) c) ?_ ?_ ?_ ?_ ⟨ts, hts, hc⟩
  · rintro c ⟨ts, hts, hc⟩
    exact hitem hts hc
  · rintro c a c' ⟨ts, hts, hc⟩ hmatch
    obtain ⟨phrase, hcuts⟩ := hfinds hmatch
    exact ⟨ts, phrase, hts, hc.move hadvances hmatch hcuts⟩
  · rintro c ⟨ts, phrase, hts, hc⟩
    exact hseparator (hc.completable hfree (hviable hts phrase))
  · rintro c b c' ⟨ts, phrase, hts, hc⟩ hmatch
    obtain ⟨t, ht, hlead⟩ := hleads hmatch
    exact ⟨_, hopen hts phrase ht, hc.lead hmoves hmatch hlead⟩

theorem list_fails {w : Word} {kw : Spelling "in"} (hts : Takes Condition.yield ts)
    (hc : Stands text (ts ++ [.word w, kw.terminal]) c) :
    FailsIn (Completable text) Grammar.list (c.skip isSpace) := by
  have hlist := hc.completable hfree (hts.viable_within w kw)
  refine ((FailsIn.cut _).spaced fun hopen => FailsIn.spaced ?_ fun _ => FailsIn.cut _).map.named
    hlist
  refine FailsIn.orElse ?_ fun _ ht => ht
  have hinside := hc.lead (char_advances '[') hopen (char_sound (m := .openBracket) hopen)
  refine separated_fails hfree (fun s : Scalar => [s.terminal])
    (fun us => ∃ items, us = ts ++ [.word w, kw.terminal, .mark .openBracket] ++ openItems items)
    (fun t => t = .mark .comma) ?_ ?_ scalar_advances (fun _ => FailsIn.cut _) ?_
    (char_advances ',') ?_ ?_ ⟨[], ?_⟩ hinside
  · rintro _ c ⟨items, rfl⟩ hc
    exact scalar_fails (hc.completable hfree (hts.viable_items w kw items))
  · intro c token c' hscalar
    obtain ⟨s, hleads, -⟩ := scalar_sound hscalar
    exact ⟨s, hleads.cuts rfl⟩
  · exact fun hcomma => ⟨_, rfl, char_sound (m := .comma) hcomma⟩
  · rintro _ ⟨items, rfl⟩ s
    have hmore := hts.viable_items w kw (items ++ [s])
    simp only [openItems, List.flatMap_append, List.flatMap_cons, List.flatMap_nil,
      List.append_nil, ← List.append_assoc] at hmore ⊢
    refine Viable.of_append ?_ (allClean_cons.mpr ⟨clean_mark (m := .comma), allClean_nil⟩)
    simpa using hmore
  · rintro _ _ ⟨items, rfl⟩ s rfl
    exact ⟨items ++ [s], by simp [openItems]⟩
  · simp [openItems]

section Conditions

variable (hts : Takes Condition.yield ts) (hc : Stands text ts c)

include hts hc

/-- The word of a path, and behind it what goes on a condition. -/
theorem path_fails {α : Type} {p : Pattern α}
    (hp : ∀ {w c'}, Stands text (ts ++ [.word w]) c' →
      FailsIn (Completable text) p (c'.skip isSpace)) :
    FailsIn (Completable text) (Grammar.spaced (Grammar.word .path path) p) (c.skip isSpace) := by
  refine (FailsIn.word _ _ (hc.completable hfree hts.viable)).spaced fun hpath => ?_
  obtain ⟨w, hleads, -⟩ := path_sound hpath
  exact hp (hc.lead (path_takesLongest.advances .path) hpath hleads)

theorem membership_fails : FailsIn (Completable text) Grammar.membership (c.skip isSpace) := by
  refine (path_fails hfree hts hc fun {w c'} hpath => ?_).map.named
    (hc.completable hfree hts.viable)
  refine (FailsIn.word _ _ (hpath.completable hfree (hts.viable_path w))).spaced fun hin => ?_
  obtain ⟨kw, hleads⟩ := keywordWord_sound (by decide) hin
  have hbehind := hpath.lead (keyword_advances (by decide) .inOp) hin hleads
  rw [List.append_assoc] at hbehind
  exact list_fails hfree hts hbehind

theorem presence_fails : FailsIn (Completable text) Grammar.presence (c.skip isSpace) := by
  refine (path_fails hfree hts hc fun {w c'} hpath => ?_).map.named
    (hc.completable hfree hts.viable)
  exact FailsIn.word _ _ (hpath.completable hfree (hts.viable_path w))

theorem comparison_fails : FailsIn (Completable text) Grammar.comparison (c.skip isSpace) := by
  refine (path_fails hfree hts hc fun {w c'} hpath => ?_).map.named
    (hc.completable hfree hts.viable)
  refine (FailsIn.word _ _ (hpath.completable hfree (hts.viable_path w))).spaced fun hop => ?_
  obtain ⟨hcompares, kw, hleads⟩ := comparisonOp_sound hop.word
  have hbehind := hpath.lead comparisonOp_advances hop hleads
  rw [List.append_assoc] at hbehind
  exact scalar_fails (hbehind.completable hfree (hts.viable_operator w hcompares kw))

end Conditions

section Factors

variable {p : Pattern Draft} (hp : ExploresFactors text p)

include hp

theorem term_fails (hts : Takes Operands.yield ts) (hc : Stands text ts c) :
    FailsIn (Completable text) (Grammar.term p) (c.skip isSpace) := by
  refine (separated_fails hfree Factor.yield (Takes Operands.yield)
    (fun t => ∃ kw : Spelling "and", kw.terminal = t) ?_ ?_ hp.advances (FailsIn.word _ _) ?_
    (keyword_advances (by decide) .andOp) ?_ ?_ hts hc).map.named
    (hc.completable hfree hts.factor.condition.viable)
  · exact fun hts hc => hp.fails hts.factor hc
  · intro c d c' hfactor
    obtain ⟨f, hcuts, -⟩ := hp.finds hfactor
    exact ⟨f, hcuts⟩
  · intro c u c' hand
    obtain ⟨kw, hleads⟩ := keywordWord_sound (by decide) hand
    exact ⟨_, ⟨kw, rfl⟩, hleads⟩
  · exact fun hts f => hts.factor f
  · rintro ts _ hts f ⟨kw, rfl⟩
    exact hts.operand f kw

theorem expr_fails (hts : Takes Alternatives.yield ts) (hc : Stands text ts c) :
    FailsIn (Completable text) (Grammar.expr p) (c.skip isSpace) := by
  refine (separated_fails hfree Operands.yield (Takes Alternatives.yield)
    (fun t => ∃ kw : Spelling "or", kw.terminal = t) ?_ ?_ (term_advances hp.advances)
    (FailsIn.word _ _) ?_ (keyword_advances (by decide) .orOp) ?_ ?_ hts hc).map.named
    (hc.completable hfree hts.operands.factor.condition.viable)
  · exact fun hts hc => term_fails hfree hp hts.operands hc
  · intro c d c' hterm
    obtain ⟨t, hcuts, -⟩ := term_sound hp.finds hterm
    exact ⟨t, hcuts⟩
  · intro c u c' hor
    obtain ⟨kw, hleads⟩ := keywordWord_sound (by decide) hor
    exact ⟨_, ⟨kw, rfl⟩, hleads⟩
  · exact fun hts t => hts.operands t
  · rintro ts _ hts t ⟨kw, rfl⟩
    exact hts.alternative t kw

theorem negation_fails (hts : Takes Factor.yield ts) (hc : Stands text ts c) :
    FailsIn (Completable text) (Grammar.negation p) (c.skip isSpace) := by
  have hhere := hc.completable hfree hts.condition.viable
  refine ((FailsIn.word _ _ hhere).spaced fun hnot => ?_).map.named hhere
  obtain ⟨kw, hleads⟩ := keywordWord_sound (by decide) hnot
  exact hp.fails (hts.negated kw)
    (hc.lead (keyword_advances (by decide) .notOp) hnot hleads)

theorem group_fails (hts : Takes Factor.yield ts) (hc : Stands text ts c) :
    FailsIn (Completable text) (Grammar.group p) (c.skip isSpace) := by
  refine ((FailsIn.cut _).spaced fun hopen => FailsIn.spaced ?_ fun _ => FailsIn.cut _).map.named
    (hc.completable hfree hts.condition.viable)
  exact expr_fails hfree hp hts.grouped
    (hc.lead (char_advances '(') hopen (char_sound (m := .openParen) hopen))

end Factors

/-- However deep negations and groups nest, factors fail only where the text can be
completed. -/
theorem factor_explores (depth : Nat) : ExploresFactors text (Grammar.factor depth) := by
  induction depth with
  | zero => exact ⟨factor_sound 0, factor_advances 0, fun _ _ _ ht => ht⟩
  | succ depth ih =>
      refine ⟨factor_sound _, factor_advances _, fun hts hc => ?_⟩
      have hconditions := (membership_fails hfree hts.condition hc).orElse
        ((presence_fails hfree hts.condition hc).orElse (comparison_fails hfree hts.condition hc))
      exact (negation_fails hfree ih hts hc).orElse
        ((group_fails hfree ih hts hc).orElse hconditions)

theorem query_fails (length : Nat) :
    FailsIn (Completable text) (Grammar.query length) ⟨0, text⟩ := by
  have hfactors := factor_explores hfree (length + 1)
  have hstart := (expr_fails hfree hfactors .nil (.start text)).after
  refine (hstart.spaced fun hexpr => FailsIn.word _ _ ?_).map.named (completable_zero text)
  obtain ⟨a, hcuts, -⟩ := expr_sound hfactors.finds hexpr.after
  have hbehind := (Stands.start text).move (expr_advances hfactors.advances) hexpr.after hcuts
  exact hbehind.completable hfree ⟨[], allClean_nil, a, (List.append_nil _).symm⟩

end Fails

/-- An error is told at a place up to which the text is the beginning of a query. -/
theorem error_after_beginning {text : String} (hblank : Text.allBlank text = false)
    (hfree : FreeOfHalves text.toList) {e : SyntaxError} (h : parse text = .error e) :
    ∃ offset ≤ text.toList.length,
      (e.line, e.column) = placeAfter 1 1 (text.toList.take offset) ∧
      ∃ more tree, parse (String.ofList (text.toList.take offset) ++ more) = .ok tree := by
  have hfails := query_fails hfree text.toList.length .start (completable_zero _)
  simp only [parse, hblank, Bool.false_eq_true, if_false] at h
  split at h
  · next trace hmiss =>
    cases h
    rw [hmiss] at hfails
    exact ⟨_, hfails.1, rfl, hfails.2⟩
  · next draft c' trace hmatch =>
    obtain ⟨d, hsplits, hd⟩ := query_sound ⟨.start, trace, hmatch⟩
    have htree := (hd d.expr).mpr ⟨hfree _ _ hsplits, rfl⟩
    rw [htree] at h
    cases h

namespace Sample

/-- A list in a group breaks off in the second line. -/
def brokenQuery : String := "not (role eq \"admin\" and\r\n  country in [\"US\", xor"

end Sample

theorem broken_list_goes_on :
    Text.allBlank Sample.brokenQuery = false ∧ FreeOfHalves Sample.brokenQuery.toList ∧
    ∃ e, parse Sample.brokenQuery = .error e ∧ (e.line, e.column) = (2, 21) ∧
      ∃ offset ≤ Sample.brokenQuery.toList.length,
        (2, 21) = placeAfter 1 1 (Sample.brokenQuery.toList.take offset) ∧
        ∃ more tree,
          parse (String.ofList (Sample.brokenQuery.toList.take offset) ++ more) = .ok tree := by
  have hblank : Text.allBlank Sample.brokenQuery = false := by decide +kernel
  have hfree : FreeOfHalves Sample.brokenQuery.toList := by
    have hplain : '\\' ∉ Sample.brokenQuery.toList := by decide +kernel
    exact freeOfHalves_of_unwritten
      fun _ _ _ _ _ hwritten => absurd (hwritten.subset (List.mem_cons_self ..)) hplain
  have herror : parse Sample.brokenQuery =
      .error ⟨2, 21, .unexpected [.stringLit, .numberLit, .boolLit, .nullLit]⟩ :=
    eq_error_of_fault? (by decide +kernel)
  exact ⟨hblank, hfree, _, herror, rfl, error_after_beginning hblank hfree herror⟩

end FlagGovernance.Query
