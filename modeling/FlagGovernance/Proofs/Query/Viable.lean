import FlagGovernance.Proofs.Query.Soundness
/-
Beginnings of queries.

Terminals are viable if some derivation starts with them.  Where a part of the grammar may
stand after viable terminals, any derivation of that part may, and from this follows what
may stand inside the part: the parts of a factor, the words of a condition, the items of a
list.
-/

namespace FlagGovernance.Query

/-- Some query starts with the terminals, and what it goes on with is clean. -/
def Viable (ts : List Terminal) : Prop :=
  ∃ us, AllClean us ∧ ∃ d : Alternatives, d.yield = ts ++ us

/-- After the terminals any derivation of a part of the grammar goes on a query. -/
def Takes {α : Type} (yield : α → List Terminal) (ts : List Terminal) : Prop :=
  ∀ a, Viable (ts ++ yield a)

theorem Viable.of_append {ts us : List Terminal} (h : Viable (ts ++ us)) (hus : AllClean us) :
    Viable ts := by
  obtain ⟨vs, hvs, d, hd⟩ := h
  exact ⟨us ++ vs, allClean_append.mpr ⟨hus, hvs⟩, d, by rw [hd, List.append_assoc]⟩

namespace Takes

variable {ts : List Terminal}

theorem nil : Takes Alternatives.yield [] :=
  fun d => ⟨[], allClean_nil, d, (List.append_nil _).symm⟩

theorem operands (h : Takes Alternatives.yield ts) : Takes Operands.yield ts :=
  fun t => h (.last t)

theorem factor (h : Takes Operands.yield ts) : Takes Factor.yield ts :=
  fun f => h (.last f)

theorem condition (h : Takes Factor.yield ts) : Takes Condition.yield ts :=
  fun k => h (.condition k)

theorem alternative (h : Takes Alternatives.yield ts) (t : Operands) (kw : Spelling "or") :
    Takes Alternatives.yield (ts ++ t.yield ++ [kw.terminal]) := by
  intro d
  have hmore := h (.more t kw d)
  simpa [Alternatives.yield] using hmore

theorem operand (h : Takes Operands.yield ts) (f : Factor) (kw : Spelling "and") :
    Takes Operands.yield (ts ++ f.yield ++ [kw.terminal]) := by
  intro t
  have hmore := h (.more f kw t)
  simpa [Operands.yield] using hmore

theorem negated (h : Takes Factor.yield ts) (kw : Spelling "not") :
    Takes Factor.yield (ts ++ [kw.terminal]) := by
  intro f
  have hnot := h (.not kw f)
  simpa [Factor.yield] using hnot

theorem grouped (h : Takes Factor.yield ts) :
    Takes Alternatives.yield (ts ++ [.mark .openParen]) := by
  intro d
  have hgroup := h (.group d)
  simp only [Factor.yield, ← List.cons_append, ← List.append_assoc] at hgroup
  have hopen := hgroup.of_append (by simp)
  simpa using hopen

end Takes

/-! Conditions as far as they are written. -/

/-- A keyword in small letters. -/
def Spelling.plain (k : String) (hpath : IsPath k.toList)
    (hlower : Text.lowerAscii k.toList = k.toList) : Spelling k :=
  ⟨⟨k.toList, hpath⟩, hlower⟩

def Spelling.pr : Spelling "pr" :=
  .plain "pr" (.one ⟨by decide, List.all_eq_true.mp (by decide)⟩) (by decide)

def Spelling.null : Spelling Constant.null.keyword :=
  .plain "null" (.one ⟨by decide, List.all_eq_true.mp (by decide)⟩) (by decide)

/-- The value that has a name and is nothing. -/
def Scalar.nothing : Scalar := .constant .null .null

/-- Items of a list, each with a comma after it. -/
def openItems (items : List Scalar) : List Terminal :=
  items.flatMap (fun s => [s.terminal, .mark .comma])

theorem furtherItems_concat (items : List Scalar) (s : Scalar) :
    furtherItems (items ++ [s]) = .mark .comma :: (openItems items ++ [s.terminal]) := by
  induction items with
  | nil => rfl
  | cons s' items ih =>
      simp only [furtherItems, openItems, List.cons_append, List.flatMap_cons] at ih ⊢
      rw [ih]
      rfl

theorem itemsYield_concat (items : List Scalar) (s : Scalar) :
    itemsYield (items ++ [s]) = openItems items ++ [s.terminal] := by
  cases items with
  | nil => rfl
  | cons s' items =>
      rw [List.cons_append, itemsYield, furtherItems_concat]
      rfl

namespace Takes

variable {ts : List Terminal} (h : Takes Condition.yield ts)

include h

/-- What a condition starts with may stand where the condition may, if the rest of the
condition is clean. -/
theorem viable_start (k : Condition) (us vs : List Terminal) (hk : k.yield = us ++ vs)
    (hvs : AllClean vs) : Viable (ts ++ us) := by
  have hall := h k
  rw [hk, ← List.append_assoc] at hall
  exact hall.of_append hvs

theorem viable : Viable ts := by
  have hstart := h.viable_start (.present ⟨_, Spelling.pr.word.isPath⟩ .pr) [] _ rfl
    (by simp [Condition.operator, Condition.operand])
  simpa using hstart

theorem viable_path (w : Word) : Viable (ts ++ [.word w]) :=
  h.viable_start (.present w .pr) [.word w] [Spelling.pr.terminal] rfl (by simp)

theorem viable_operator (w : Word) {op : Operator} (hop : op ∈ comparisons)
    (kw : Spelling op.keyword) : Viable (ts ++ [.word w, kw.terminal]) :=
  h.viable_start (.compare w op hop kw .nothing) [.word w, kw.terminal]
    [Scalar.nothing.terminal] rfl (by simp [Scalar.nothing, Scalar.terminal])

theorem viable_within (w : Word) (kw : Spelling "in") : Viable (ts ++ [.word w, kw.terminal]) :=
  h.viable_start (.within w kw []) [.word w, kw.terminal] [.mark .openBracket, .mark .closeBracket]
    rfl (by simp)

/-- A list goes on after its opening and after each comma. -/
theorem viable_items (w : Word) (kw : Spelling "in") (items : List Scalar) :
    Viable (ts ++ [.word w, kw.terminal, .mark .openBracket] ++ openItems items) := by
  have hstart := h.viable_start (.within w kw (items ++ [.nothing]))
    ([.word w, kw.terminal, .mark .openBracket] ++ openItems items)
    [Scalar.nothing.terminal, .mark .closeBracket]
    (by simp [Condition.yield, Condition.path, Condition.operator, Condition.operand,
      itemsYield_concat])
    (by simp [Scalar.nothing, Scalar.terminal])
  simpa using hstart

end Takes

end FlagGovernance.Query
