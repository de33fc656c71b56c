import FlagGovernance.Query.Codec
import FlagGovernance.Proofs.Decode.Laws
import FlagGovernance.Proofs.Query.Parsing
/-
Queries in JSON, read again.

A tree is written node by node and read back node by node, and only its numbers can stand
in the way: a number that is not finite is written `null`, which is no number.  The text
of a query can hold such a number, since digits have no bound, so a query is read back
just when each of its numerals stands for a finite number.
-/

namespace FlagGovernance

open Decode Record

variable {α β : Type}

/-- Of a record whose other fields are found, the last one decides. -/
theorem members_seq_required {f : Record (α → β)} {g : α → β} {ms : List (String × Json)}
    (hf : f.Finds ms g) {key : String} {v : Json} (hmember : Json.member? key ms = some v)
    (d : Decoder α) (r : Reading) : members (f <*> required key d) r ms = (d r v).map g := by
  rw [members, read_seq, hf r 0]
  simp only [required, field, FieldSource.get?, hmember]
  cases d r v <;> rfl

/-- What is told where a number is wanted and there is none. -/
def noNumber : DecodeError := .invalidType .null "f64"

theorem Operator.reads_toJson (op : Operator) : Reads Operator.decode op.toJson op := by
  intro r
  cases op <;> rfl

/-- A literal as it is read from its own JSON form. -/
def Literal.reread (l : Literal) : Except DecodeError Literal := Literal.decode .direct l.toJson

theorem Literal.reread_number (d : Double) :
    (Literal.number d).reread = if d.isFinite then .ok (.number d) else .error noNumber := by
  by_cases hd : d.isFinite = true
  · simp only [reread, toJson, Json.ofDouble, hd, if_true]
    rfl
  · simp only [reread, toJson, Json.ofDouble, hd]
    rfl

namespace Expr

theorem finds_attribute (path : String) (ms : List (String × Json)) :
    (required "attribute" string).Finds (("attribute", .string path) :: ms) path := by
  have hpath : Reads string (.string path) path := fun _ => rfl
  exact finds_field rfl hpath _

theorem members_comparison (path : String) (op : Operator) (v : Json) :
    members comparison .direct [("attribute", .string path), ("op", op.toJson), ("value", v)] =
      (Literal.decode .direct v).map (.compare path op) := by
  have hop : (required "op" Operator.decode).Finds
      [("attribute", .string path), ("op", op.toJson), ("value", v)] op :=
    finds_field rfl op.reads_toJson _
  exact members_seq_required (((finds_attribute path _).map ExprOf.compare).seq hop) rfl _ .direct

theorem members_membership (path : String) (v : Json) :
    members membership .direct [("attribute", .string path), ("values", v)] =
      (Decode.list Literal.decode .direct v).map (.within path) :=
  members_seq_required ((finds_attribute path _).map ExprOf.within) rfl _ .direct

theorem members_presence (path : String) :
    members presence .direct [("attribute", .string path)] = .ok (.present path) :=
  members_of_finds ((finds_attribute path _).map ExprOf.present) .direct

mutual

/-- A tree is read from its own JSON form as its literals are. -/
theorem ofJson_toJson (e : Expr) : ofJson (toJson e) = e.resolve Literal.reread := by
  cases e with
  | or operands => exact congrArg (Except.map ExprOf.or) (allOfJson_allToJson operands)
  | and operands => exact congrArg (Except.map ExprOf.and) (allOfJson_allToJson operands)
  | not operand => exact congrArg (Except.map ExprOf.not) (ofJson_toJson operand)
  | compare path op value => exact members_comparison path op value.toJson
  | within path values =>
      have hlist : Decode.list Literal.decode .direct (.array (values.map Literal.toJson)) =
          values.mapM Literal.reread := List.mapM_map
      rw [ExprOf.resolve, ← hlist]
      exact members_membership path _
  | present path => exact members_presence path

theorem allOfJson_allToJson (es : List Expr) :
    allOfJson (allToJson es) = ExprOf.resolveAll Literal.reread es := by
  cases es with
  | nil => rfl
  | cons e es =>
      rw [allToJson, allOfJson, ofJson_toJson e, allOfJson_allToJson es, ExprOf.resolveAll]

end

end Expr

namespace Query

/-- A check that passes with a value, or tells that a number is missing. -/
def Passes (x : Except DecodeError α) (passes : Bool) (a : α) : Prop :=
  x = if passes then .ok a else .error noNumber

namespace Passes

variable {x : Except DecodeError α} {p q : Bool} {a : α}

theorem map (h : Passes x p a) (f : α → β) : Passes (x.map f) p (f a) := by
  rw [Passes, show x = _ from h]
  cases p <;> rfl

theorem cons {xs : Except DecodeError (List α)} {as : List α} (h : Passes x p a)
    (hs : Passes xs q as) :
    Passes (x >>= fun a => xs >>= fun as => pure (a :: as)) (p && q) (a :: as) := by
  rw [Passes, show x = _ from h, show xs = _ from hs]
  cases p <;> cases q <;> rfl

theorem singleton (h : Passes x p a) :
    Passes (x >>= fun a => pure [] >>= fun as => pure (a :: as)) p [a] := by
  rw [Passes, show x = _ from h]
  cases p <;> rfl

end Passes

/-- The terminal is no number too large to be finite. -/
def Terminal.finite : Terminal → Bool
  | .number n => n.value.isFinite
  | _ => true

theorem Scalar.reread_literal (s : Scalar) :
    Passes s.literal.reread s.terminal.finite s.literal := by
  cases s with
  | string ps => rfl
  | number n => exact Literal.reread_number n.value
  | constant c kw => cases c <;> rfl

theorem all_finite_itemsYield (items : List Scalar) :
    (itemsYield items).all Terminal.finite = items.all (fun s => s.terminal.finite) := by
  have hfurther (items : List Scalar) :
      (furtherItems items).all Terminal.finite = items.all (fun s => s.terminal.finite) := by
    induction items with
    | nil => rfl
    | cons s items ih =>
        rw [furtherItems, List.flatMap_cons, List.all_append, ← furtherItems, ih]
        simp [Terminal.finite]
  cases items with
  | nil => rfl
  | cons s items => rw [itemsYield, List.all_cons, List.all_cons, hfurther]

theorem reread_items (items : List Scalar) :
    Passes ((items.map Scalar.literal).mapM Literal.reread) (items.all fun s => s.terminal.finite)
      (items.map Scalar.literal) := by
  induction items with
  | nil => rfl
  | cons s items ih =>
      rw [List.map_cons, List.mapM_cons, List.all_cons]
      exact s.reread_literal.cons ih

theorem Condition.reread (c : Condition) :
    Passes (c.expr.resolve Literal.reread) (c.yield.all Terminal.finite) c.expr := by
  cases c with
  | within path kw items =>
      have hyield : (Condition.within path kw items).yield.all Terminal.finite =
          items.all (fun s => s.terminal.finite) := by
        rw [← all_finite_itemsYield]
        simp [yield, operator, operand, Spelling.terminal, Terminal.finite]
      rw [hyield]
      exact (reread_items items).map _
  | present path kw => rfl
  | compare path op hop kw value =>
      have hyield : (Condition.compare path op hop kw value).yield.all Terminal.finite =
          value.terminal.finite := by
        simp [yield, operator, operand, Spelling.terminal, Terminal.finite]
      rw [hyield]
      exact value.reread_literal.map _

theorem all_finite_append (ts us : List Terminal) {k : String} (kw : Spelling k) :
    (ts ++ kw.terminal :: us).all Terminal.finite =
      (ts.all Terminal.finite && us.all Terminal.finite) := by
  simp [Spelling.terminal, Terminal.finite]

mutual

theorem Alternatives.reread (d : Alternatives) :
    Passes (d.expr.resolve Literal.reread) (d.yield.all Terminal.finite) d.expr := by
  cases d with
  | last t => exact t.reread
  | more t kw rest =>
      rw [Alternatives.yield, all_finite_append]
      exact (t.reread.cons rest.rereadAll).map ExprOf.or

theorem Alternatives.rereadAll (d : Alternatives) :
    Passes (ExprOf.resolveAll Literal.reread d.exprs) (d.yield.all Terminal.finite) d.exprs := by
  cases d with
  | last t => exact t.reread.singleton
  | more t kw rest =>
      rw [Alternatives.yield, all_finite_append]
      exact t.reread.cons rest.rereadAll

theorem Operands.reread (t : Operands) :
    Passes (t.expr.resolve Literal.reread) (t.yield.all Terminal.finite) t.expr := by
  cases t with
  | last f => exact f.reread
  | more f kw rest =>
      rw [Operands.yield, all_finite_append]
      exact (f.reread.cons rest.rereadAll).map ExprOf.and

theorem Operands.rereadAll (t : Operands) :
    Passes (ExprOf.resolveAll Literal.reread t.exprs) (t.yield.all Terminal.finite) t.exprs := by
  cases t with
  | last f => exact f.reread.singleton
  | more f kw rest =>
      rw [Operands.yield, all_finite_append]
      exact f.reread.cons rest.rereadAll

theorem Factor.reread (f : Factor) :
    Passes (f.expr.resolve Literal.reread) (f.yield.all Terminal.finite) f.expr := by
  cases f with
  | condition c => exact c.reread
  | not kw f => exact f.reread.map ExprOf.not
  | group inner =>
      have hyield : (Factor.group inner).yield.all Terminal.finite =
          inner.yield.all Terminal.finite := by
        simp [Factor.yield, Terminal.finite]
      rw [hyield]
      exact inner.reread

end

/-- A query that is read from a text is read again from its JSON form just when each
numeral of the text stands for a finite number; else a number is told to be missing. -/
theorem decode_toJson_of_parse {text : String} {e : Expr} (h : parse text = .ok e) :
    ∃ ts, Splits text.toList ts ∧ ∀ r, Expr.decode r e.toJson =
      if ts.all Terminal.finite then .ok e else .error (.invalidType .null "f64") := by
  obtain ⟨d, hsplits, -, rfl⟩ := exists_splits_of_parse h
  refine ⟨d.yield, hsplits, fun r => ?_⟩
  exact (Expr.ofJson_toJson d.expr).trans d.reread

namespace Sample

def nestedQuery : String := "not (age ge 18.5 and x pr) or role in [\"admin\", -1e3, null]"

/-- Ten to the power of four hundred. -/
def hugeNumeral : Numeral where
  negative := false
  whole := ⟨['1'], nofun, List.all_eq_true.mp (by decide)⟩
  fraction := none
  exponent := some ⟨'e', .inl rfl, .unwritten,
    ⟨['4', '0', '0'], nofun, List.all_eq_true.mp (by decide)⟩⟩

end Sample

theorem nested_query_reread :
    ∃ e ts, parse Sample.nestedQuery = .ok e ∧ Splits Sample.nestedQuery.toList ts ∧
      ts.all Terminal.finite = true ∧ ∀ r, Expr.decode r e.toJson = .ok e := by
  have hparse : fault? (parse Sample.nestedQuery) = none := by decide +kernel
  have hpasses : ((parse Sample.nestedQuery).toOption.any fun e =>
      (fault? (Expr.decode .direct e.toJson)).isNone) = true := by decide +kernel
  obtain ⟨e, he⟩ := exists_ok_of_fault? hparse
  obtain ⟨ts, hsplits, hread⟩ := decode_toJson_of_parse he
  have hfinite : ts.all Terminal.finite = true := by
    by_cases hall : ts.all Terminal.finite = true
    · exact hall
    · simp [he, Except.toOption, hread, hall, fault?] at hpasses
  exact ⟨e, ts, he, hsplits, hfinite, fun r => by rw [hread r, if_pos hfinite]⟩

/-- A number past the range of doubles is read from a text and not from the JSON form. -/
theorem overflowing_number_not_reread :
    parse "a eq 1e400" = .ok (.compare "a" .eq (.number (.infinity false))) ∧
    Expr.decode .direct (Expr.toJson (.compare "a" .eq (.number (.infinity false)))) =
      .error (.invalidType .null "f64") := by
  have htext : "a eq 1e400" = "a eq " ++ String.ofList Sample.hugeNumeral.text := by decide +kernel
  have hvalue : Sample.hugeNumeral.value = .infinity false := by decide +kernel
  refine ⟨?_, rfl⟩
  rw [htext, ← hvalue]
  exact parse_equalsScalar (s := .number Sample.hugeNumeral) trivial

end Query

end FlagGovernance
