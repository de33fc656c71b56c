import FlagGovernance.Query.Rule
/-
Matching with a record of what was attempted.

A pattern is matched at a cursor. Whether it matches or not, it leaves a trace:
the furthest place at which a named rule failed, and the rules that failed there.
A rule stands for the attempts made inside it at its own start, unless there was
exactly one, which then speaks for itself.
-/

namespace FlagGovernance.Query

/-- A place in the query: how many characters lie before it, and those after. -/
structure Cursor where
  offset : Nat
  rest : List Char
deriving DecidableEq, Repr

/-- The cursor some characters further on. -/
def Cursor.advance (c : Cursor) (rest : List Char) : Cursor :=
  ⟨c.offset + (c.rest.length - rest.length), rest⟩

/-- The cursor after any characters of a class. -/
def Cursor.skip (c : Cursor) (blank : Char → Bool) : Cursor :=
  c.advance (c.rest.dropWhile blank)

/-- The furthest failures so far. -/
structure Trace where
  furthest : Nat
  rules : List Rule
deriving DecidableEq, Repr

namespace Trace

def start : Trace := ⟨0, []⟩

/-- How many failures are recorded at a place. -/
def countAt (t : Trace) (offset : Nat) : Nat :=
  if t.furthest = offset then t.rules.length else 0

/-- Records that a rule failed at a place where `before` failures were known
when it was tried. -/
def fail (t : Trace) (rule : Rule) (offset before : Nat) : Trace :=
  if t.countAt offset = before + 1 then t
  else if offset = t.furthest then ⟨offset, t.rules.take before ++ [rule]⟩
  else if t.furthest < offset then ⟨offset, [rule]⟩
  else t

end Trace

/-- A way to match: what is matched at a cursor, if anything, and the trace. -/
abbrev Pattern (α : Type) := Cursor → Trace → Option (α × Cursor) × Trace

namespace Pattern

variable {α β γ : Type}

/-- Matches nothing anywhere. -/
def never : Pattern α := fun _ t => (none, t)

/-- Characters that a cut takes from the front of the text. -/
def cut (take : List Char → Option (α × List Char)) : Pattern α := fun c t =>
  match take c.rest with
  | some (a, rest) => (some (a, c.advance rest), t)
  | none => (none, t)

/-- One given character. -/
def char (d : Char) : Pattern Unit :=
  cut (fun
    | [] => none
    | c :: rest => if c = d then some ((), rest) else none)

/-- One pattern and then another. -/
def both (p : Pattern α) (q : Pattern β) : Pattern (α × β) := fun c t =>
  match p c t with
  | (none, t) => (none, t)
  | (some (a, c), t) =>
    match q c t with
    | (none, t) => (none, t)
    | (some (b, c), t) => (some ((a, b), c), t)

/-- A pattern past any characters of a class. -/
def after (blank : Char → Bool) (p : Pattern α) : Pattern α := fun c t =>
  p (c.skip blank) t

def map (f : α → β) (p : Pattern α) : Pattern β := fun c t =>
  match p c t with
  | (none, t) => (none, t)
  | (some (a, c), t) => (some (f a, c), t)

/-- The first of two patterns that matches. -/
def orElse (p q : Pattern α) : Pattern α := fun c t =>
  match p c t with
  | (some found, t) => (some found, t)
  | (none, t) => q c t

/-- As many matches as there are in a row, up to a bound. -/
def many (p : Pattern α) : Nat → Pattern (List α)
  | 0 => fun c t => (some ([], c), t)
  | bound + 1 => fun c t =>
    match p c t with
    | (none, t) => (some ([], c), t)
    | (some (a, c), t) => map (a :: ·) (many p bound) c t

/-- As many matches as there are in a row, each of at least one character. -/
def repeated (p : Pattern α) : Pattern (List α) := fun c t =>
  many p (c.rest.length + 1) c t

/-- A pattern as a rule: its failure is recorded at the place it was tried. -/
def named (rule : Rule) (p : Pattern α) : Pattern α := fun c t =>
  match p c t with
  | (some found, t') => (some found, t')
  | (none, t') => (none, t'.fail rule c.offset (t.countAt c.offset))

end Pattern

end FlagGovernance.Query
