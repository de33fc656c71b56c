import FlagGovernance.Proofs.Query.Terminals
/-
Derivations in the grammar of queries.

A derivation has the terminals of a query at its leaves. Its tree has one node for
two alternatives or operands and more, however many they are, and none for a group.
No two derivations have the same leaves.
-/

namespace FlagGovernance.Query

/-- A word that is a given keyword in letters of any case. -/
structure Spelling (k : String) where
  word : Word
  spelled : Text.lowerAscii word.text = k.toList

def Spelling.terminal {k : String} (s : Spelling k) : Terminal := .word s.word

/-- The values that have a name. -/
inductive Constant
  | true | false | null

namespace Constant

def keyword : Constant → String
  | true => "true"
  | false => "false"
  | null => "null"

def literal : Constant → Literal
  | true => .bool Bool.true
  | false => .bool Bool.false
  | null => .null

end Constant

inductive Scalar
  | string (pieces : List Piece)
  | number (n : Numeral)
  | constant (c : Constant) (kw : Spelling c.keyword)

namespace Scalar

def terminal : Scalar → Terminal
  | string pieces => .quoted pieces
  | number n => .number n
  | constant _ kw => kw.terminal

def literal : Scalar → Literal
  | string pieces => .string (String.ofList (pieces.map Piece.char))
  | number n => .number n.value
  | constant c _ => c.literal

end Scalar

/-- Scalars, each after a comma. -/
def furtherItems (items : List Scalar) : List Terminal :=
  items.flatMap (fun s => [.mark .comma, s.terminal])

/-- Scalars parted by commas. -/
def itemsYield : List Scalar → List Terminal
  | [] => []
  | s :: items => s.terminal :: furtherItems items

def comparisons : List Operator := [.eq, .ne, .lt, .le, .gt, .ge, .co, .sw, .ew]

/-- What a path is asked for. -/
inductive Condition
  | within (path : Word) (kw : Spelling "in") (items : List Scalar)
  | present (path : Word) (kw : Spelling "pr")
  | compare (path : Word) (op : Operator) (hop : op ∈ comparisons) (kw : Spelling op.keyword)
      (value : Scalar)

namespace Condition

def path : Condition → Word
  | within path _ _ | present path _ | compare path _ _ _ _ => path

def op : Condition → Operator
  | within _ _ _ => .within
  | present _ _ => .present
  | compare _ op _ _ _ => op

/-- The word of the operator. -/
def operator : Condition → Terminal
  | within _ kw _ => kw.terminal
  | present _ kw => kw.terminal
  | compare _ _ _ kw _ => kw.terminal

/-- What follows the operator: a list, nothing, or a scalar. -/
def operand : Condition → List Terminal
  | within _ _ items => .mark .openBracket :: (itemsYield items ++ [.mark .closeBracket])
  | present _ _ => []
  | compare _ _ _ _ value => [value.terminal]

def yield (c : Condition) : List Terminal := .word c.path :: c.operator :: c.operand

def expr : Condition → Expr
  | within path _ items => .within (String.ofList path.text) (items.map Scalar.literal)
  | present path _ => .present (String.ofList path.text)
  | compare path op _ _ value => .compare (String.ofList path.text) op value.literal

end Condition

mutual

inductive Alternatives
  | last (t : Operands)
  | more (t : Operands) (kw : Spelling "or") (rest : Alternatives)

inductive Operands
  | last (f : Factor)
  | more (f : Factor) (kw : Spelling "and") (rest : Operands)

inductive Factor
  | condition (c : Condition)
  | not (kw : Spelling "not") (f : Factor)
  | group (inner : Alternatives)

end

mutual

def Alternatives.yield : Alternatives → List Terminal
  | .last t => t.yield
  | .more t kw rest => t.yield ++ kw.terminal :: rest.yield

def Operands.yield : Operands → List Terminal
  | .last f => f.yield
  | .more f kw rest => f.yield ++ kw.terminal :: rest.yield

def Factor.yield : Factor → List Terminal
  | .condition c => c.yield
  | .not kw f => kw.terminal :: f.yield
  | .group inner => .mark .openParen :: (inner.yield ++ [.mark .closeParen])

end

mutual

/-- The trees of all alternatives in order. -/
def Alternatives.exprs : Alternatives → List Expr
  | .last t => [t.expr]
  | .more t _ rest => t.expr :: rest.exprs

/-- The tree: a single alternative stands for itself. -/
def Alternatives.expr : Alternatives → Expr
  | .last t => t.expr
  | .more t _ rest => .or (t.expr :: rest.exprs)

/-- The trees of all operands in order. -/
def Operands.exprs : Operands → List Expr
  | .last f => [f.expr]
  | .more f _ rest => f.expr :: rest.exprs

/-- The tree: a single operand stands for itself. -/
def Operands.expr : Operands → Expr
  | .last f => f.expr
  | .more f _ rest => .and (f.expr :: rest.exprs)

/-- The tree: a group stands for what is in it. -/
def Factor.expr : Factor → Expr
  | .condition c => c.expr
  | .not _ f => .not f.expr
  | .group inner => inner.expr

end

/-! What may follow a part of a query does not go on with it. -/

/-- The terminals do not start with any of the words. -/
def Avoids (words : List String) (ts : List Terminal) : Prop :=
  ∀ t ∈ ts.head?, ∀ k ∈ words, ¬ t.Spells k

def operatorWords : List String := Operator.all.map Operator.keyword

theorem avoids_nil {words : List String} : Avoids words [] := nofun

theorem avoids_mark {words : List String} {m : Mark} {ts : List Terminal} :
    Avoids words (.mark m :: ts) := by
  intro t ht k _ hspells
  cases ht
  exact hspells

theorem spells_inj {t : Terminal} {k k' : String} (h : t.Spells k) (h' : t.Spells k') : k = k' := by
  cases t with
  | word w => exact String.toList_inj.mp (h.symm.trans h')
  | _ => exact h.elim

theorem avoids_of_spells {words : List String} {k : String} {t : Terminal} {ts : List Terminal}
    (h : t.Spells k) (hk : k ∉ words) : Avoids words (t :: ts) := by
  intro t' ht' k' hk' hspells
  cases ht'
  exact hk (spells_inj h hspells ▸ hk')

theorem Avoids.of_cons {k : String} {words : List String} {ts : List Terminal}
    (h : Avoids (k :: words) ts) : Avoids words ts :=
  fun t ht k' hk' => h t ht k' (.tail k hk')

namespace Spelling

variable {k : String}

theorem spells (s : Spelling k) : s.terminal.Spells k := s.spelled

theorem terminal_inj {s s' : Spelling k} (h : s.terminal = s'.terminal) : s = s' := by
  cases s
  cases s'
  cases h
  rfl

end Spelling

theorem operator_mem (op : Operator) : op.keyword ∈ operatorWords := by
  cases op <;> decide

theorem Operator.keyword_inj {op op' : Operator} (h : op.keyword = op'.keyword) : op = op' := by
  cases op <;> cases op' <;> first | rfl | exact absurd h (by decide)

theorem Constant.keyword_inj {c c' : Constant} (h : c.keyword = c'.keyword) : c = c' := by
  cases c <;> cases c' <;> first | rfl | exact absurd h (by decide)

namespace Scalar

theorem terminal_ne_mark (s : Scalar) (m : Mark) : s.terminal ≠ .mark m := by
  cases s <;> exact nofun

theorem terminal_inj {s s' : Scalar} (h : s.terminal = s'.terminal) : s = s' := by
  cases s with
  | string ps =>
    cases s' with
    | string ps' => cases h; rfl
    | _ => cases h
  | number n =>
    cases s' with
    | number n' => cases h; rfl
    | _ => cases h
  | constant c kw =>
    cases s' with
    | constant c' kw' =>
      have h : kw.terminal = kw'.terminal := h
      cases Constant.keyword_inj (spells_inj kw.spells (h ▸ kw'.spells))
      rw [Spelling.terminal_inj h]
    | _ => cases h

theorem avoids_terminal (s : Scalar) {ts : List Terminal} :
    Avoids operatorWords (s.terminal :: ts) := by
  cases s with
  | constant c kw => exact avoids_of_spells kw.spells (by cases c <;> decide)
  | _ =>
    intro t ht k _ hspells
    cases ht
    exact hspells

end Scalar

theorem furtherItems_append_inj {items items' : List Scalar} {us us' : List Terminal}
    (h : furtherItems items ++ .mark .closeBracket :: us =
      furtherItems items' ++ .mark .closeBracket :: us') : items = items' ∧ us = us' := by
  induction items generalizing items' with
  | nil =>
    cases items' with
    | nil => exact ⟨rfl, (List.cons.inj h).2⟩
    | cons s' items' => cases h
  | cons s items ih =>
    cases items' with
    | nil => cases h
    | cons s' items' =>
      obtain ⟨-, htail⟩ := List.cons.inj h
      obtain ⟨hs, hrest⟩ := List.cons.inj htail
      obtain ⟨rfl, hus⟩ := ih hrest
      rw [Scalar.terminal_inj hs]
      exact ⟨rfl, hus⟩

theorem itemsYield_append_inj {items items' : List Scalar} {us us' : List Terminal}
    (h : itemsYield items ++ .mark .closeBracket :: us =
      itemsYield items' ++ .mark .closeBracket :: us') : items = items' ∧ us = us' := by
  cases items with
  | nil =>
    cases items' with
    | nil => exact ⟨rfl, (List.cons.inj h).2⟩
    | cons s' items' => exact absurd (List.cons.inj h).1.symm (s'.terminal_ne_mark _)
  | cons s items =>
    cases items' with
    | nil => exact absurd (List.cons.inj h).1 (s.terminal_ne_mark _)
    | cons s' items' =>
      obtain ⟨hs, hrest⟩ := List.cons.inj h
      obtain ⟨rfl, hus⟩ := furtherItems_append_inj hrest
      rw [Scalar.terminal_inj hs]
      exact ⟨rfl, hus⟩

namespace Condition

theorem operator_spells (c : Condition) : c.operator.Spells c.op.keyword := by
  cases c with
  | within _ kw _ => exact kw.spells
  | present _ kw => exact kw.spells
  | compare _ _ _ kw _ => exact kw.spells

theorem operand_avoids (c : Condition) {us : List Terminal} (h : Avoids operatorWords us) :
    Avoids operatorWords (c.operand ++ us) := by
  cases c with
  | within => exact avoids_mark
  | present => exact h
  | compare _ _ _ _ value => exact value.avoids_terminal

theorem append_inj {c c' : Condition} {us us' : List Terminal}
    (h : c.yield ++ us = c'.yield ++ us') : c = c' ∧ us = us' := by
  obtain ⟨hpath, htail⟩ := List.cons.inj h
  obtain ⟨hoperator, hrest⟩ := List.cons.inj htail
  have hop : c.op = c'.op :=
    Operator.keyword_inj (spells_inj c.operator_spells (hoperator ▸ c'.operator_spells))
  cases c with
  | within path kw items =>
    cases c' with
    | within path' kw' items' =>
      cases hpath
      cases Spelling.terminal_inj hoperator
      obtain ⟨rfl, rfl⟩ := itemsYield_append_inj (by simpa [operand] using hrest)
      exact ⟨rfl, rfl⟩
    | present => cases hop
    | compare _ op' hop' _ _ => exact absurd hop' ((show Operator.within = op' from hop) ▸ by decide)
  | present path kw =>
    cases c' with
    | within => cases hop
    | present path' kw' =>
      cases hpath
      cases Spelling.terminal_inj hoperator
      exact ⟨rfl, hrest⟩
    | compare _ op' hop' _ _ => exact absurd hop' ((show Operator.present = op' from hop) ▸ by decide)
  | compare path op hcompares kw value =>
    cases c' with
    | within => exact absurd hcompares ((show op = Operator.within from hop) ▸ by decide)
    | present => exact absurd hcompares ((show op = Operator.present from hop) ▸ by decide)
    | compare path' op' hcompares' kw' value' =>
      cases hpath
      cases (show op = op' from hop)
      cases Spelling.terminal_inj hoperator
      obtain ⟨hvalue, rfl⟩ := List.cons.inj hrest
      rw [Scalar.terminal_inj hvalue]
      exact ⟨rfl, rfl⟩

end Condition

theorem Factor.yield_ne_nil (f : Factor) : f.yield ≠ [] := by
  cases f <;> exact nofun

theorem Operands.yield_ne_nil (t : Operands) : t.yield ≠ [] := by
  cases t with
  | last f => exact f.yield_ne_nil
  | more f kw rest => exact List.append_ne_nil_of_right_ne_nil _ nofun

theorem Alternatives.yield_ne_nil (d : Alternatives) : d.yield ≠ [] := by
  cases d with
  | last t => exact t.yield_ne_nil
  | more t kw rest => exact List.append_ne_nil_of_right_ne_nil _ nofun

/-- No factor starts with the word of an operator unless the word of another
operator follows. -/
theorem Factor.not_operator_first {f : Factor} {t : Terminal} {op : Operator} {us vs : List Terminal}
    (ht : t.Spells op.keyword) (hvs : Avoids operatorWords vs) : f.yield ++ us ≠ t :: vs := by
  intro h
  cases f with
  | condition c =>
    obtain ⟨-, rfl⟩ := List.cons.inj h
    exact hvs c.operator rfl _ (operator_mem c.op) c.operator_spells
  | not kw f =>
    obtain ⟨rfl, -⟩ := List.cons.inj h
    exact absurd (spells_inj kw.spells ht) (by cases op <;> decide)
  | group inner =>
    obtain ⟨rfl, -⟩ := List.cons.inj h
    exact ht

/-! Two derivations side by side: where one goes on, the other goes on as well, since
what follows either does not go on with it. -/

mutual

theorem Alternatives.append_inj (d d' : Alternatives) {us us' : List Terminal}
    (hus : Avoids ("or" :: "and" :: operatorWords) us)
    (hus' : Avoids ("or" :: "and" :: operatorWords) us')
    (h : d.yield ++ us = d'.yield ++ us') : d = d' ∧ us = us' := by
  cases d with
  | last t =>
    cases d' with
    | last t' =>
      obtain ⟨rfl, rfl⟩ := Operands.append_inj t t' hus.of_cons hus'.of_cons h
      exact ⟨rfl, rfl⟩
    | more t' kw' rest' =>
      rw [Alternatives.yield, Alternatives.yield, List.append_assoc] at h
      obtain ⟨-, rfl⟩ := Operands.append_inj t t' hus.of_cons
        (avoids_of_spells kw'.spells (by decide)) h
      exact absurd kw'.spells (hus _ rfl _ (.head _))
  | more t kw rest =>
    have hkw : Avoids ("and" :: operatorWords) (kw.terminal :: rest.yield ++ us) :=
      avoids_of_spells kw.spells (by decide)
    cases d' with
    | last t' =>
      rw [Alternatives.yield, Alternatives.yield, List.append_assoc] at h
      obtain ⟨-, rfl⟩ := Operands.append_inj t t' hkw hus'.of_cons h
      exact absurd kw.spells (hus' _ rfl _ (.head _))
    | more t' kw' rest' =>
      rw [Alternatives.yield, Alternatives.yield, List.append_assoc, List.append_assoc] at h
      obtain ⟨rfl, htail⟩ := Operands.append_inj t t' hkw
        (avoids_of_spells kw'.spells (by decide)) h
      obtain ⟨hword, hrest⟩ := List.cons.inj htail
      cases Spelling.terminal_inj hword
      obtain ⟨rfl, rfl⟩ := Alternatives.append_inj rest rest' hus hus' hrest
      exact ⟨rfl, rfl⟩

theorem Operands.append_inj (d d' : Operands) {us us' : List Terminal}
    (hus : Avoids ("and" :: operatorWords) us) (hus' : Avoids ("and" :: operatorWords) us')
    (h : d.yield ++ us = d'.yield ++ us') : d = d' ∧ us = us' := by
  cases d with
  | last f =>
    cases d' with
    | last f' =>
      obtain ⟨rfl, rfl⟩ := Factor.append_inj f f' hus.of_cons hus'.of_cons h
      exact ⟨rfl, rfl⟩
    | more f' kw' rest' =>
      rw [Operands.yield, Operands.yield, List.append_assoc] at h
      obtain ⟨-, rfl⟩ := Factor.append_inj f f' hus.of_cons
        (avoids_of_spells kw'.spells (by decide)) h
      exact absurd kw'.spells (hus _ rfl _ (.head _))
  | more f kw rest =>
    have hkw : Avoids operatorWords (kw.terminal :: rest.yield ++ us) :=
      avoids_of_spells kw.spells (by decide)
    cases d' with
    | last f' =>
      rw [Operands.yield, Operands.yield, List.append_assoc] at h
      obtain ⟨-, rfl⟩ := Factor.append_inj f f' hkw hus'.of_cons h
      exact absurd kw.spells (hus' _ rfl _ (.head _))
    | more f' kw' rest' =>
      rw [Operands.yield, Operands.yield, List.append_assoc, List.append_assoc] at h
      obtain ⟨rfl, htail⟩ := Factor.append_inj f f' hkw
        (avoids_of_spells kw'.spells (by decide)) h
      obtain ⟨hword, hrest⟩ := List.cons.inj htail
      cases Spelling.terminal_inj hword
      obtain ⟨rfl, rfl⟩ := Operands.append_inj rest rest' hus hus' hrest
      exact ⟨rfl, rfl⟩

theorem Factor.append_inj (f f' : Factor) {us us' : List Terminal}
    (hus : Avoids operatorWords us) (hus' : Avoids operatorWords us')
    (h : f.yield ++ us = f'.yield ++ us') : f = f' ∧ us = us' := by
  cases f with
  | condition c =>
    cases f' with
    | condition c' =>
      obtain ⟨rfl, rfl⟩ := Condition.append_inj h
      exact ⟨rfl, rfl⟩
    | not kw' f' =>
      exact absurd (List.cons.inj h).2.symm
        (Factor.not_operator_first c.operator_spells (c.operand_avoids hus))
    | group inner' => cases h
  | not kw f =>
    cases f' with
    | condition c' =>
      exact absurd (List.cons.inj h).2
        (Factor.not_operator_first c'.operator_spells (c'.operand_avoids hus'))
    | not kw' f' =>
      obtain ⟨hword, hrest⟩ := List.cons.inj h
      cases Spelling.terminal_inj hword
      obtain ⟨rfl, rfl⟩ := Factor.append_inj f f' hus hus' hrest
      exact ⟨rfl, rfl⟩
    | group inner' => cases h
  | group inner =>
    cases f' with
    | condition c' => cases h
    | not kw' f' => cases h
    | group inner' =>
      have hinner := (List.cons.inj h).2
      rw [List.append_eq, List.append_eq, List.append_assoc, List.append_assoc] at hinner
      obtain ⟨rfl, htail⟩ := Alternatives.append_inj inner inner' avoids_mark avoids_mark hinner
      exact ⟨rfl, (List.cons.inj htail).2⟩

end

/-- No two derivations have the same leaves. -/
theorem Alternatives.yield_inj {d d' : Alternatives} (h : d.yield = d'.yield) : d = d' :=
  (append_inj d d' avoids_nil avoids_nil (by rw [h])).1

end FlagGovernance.Query
