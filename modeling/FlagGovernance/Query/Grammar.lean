import FlagGovernance.Query.Attempt
import FlagGovernance.Query.Lexeme
/-
The grammar of targeting queries.

    query  := expr
    expr   := term ("or" term)*
    term   := factor ("and" factor)*
    factor := "not" factor | "(" expr ")" | path "in" list | path "pr" | path op scalar
    list   := "[" (scalar ("," scalar)*)? "]"

Spaces, tabs and line breaks may stand between words. Alternatives are tried in
the order written, and the first that matches is taken.
-/

namespace FlagGovernance.Query

/-- A literal as matched: the place where it starts, and its value unless it is a
string with an escape that stands for no character. -/
structure Token where
  offset : Nat
  value : Option Literal
deriving DecidableEq, Repr

abbrev Draft := ExprOf Token

namespace Grammar

open Pattern

/-- A lexeme as a rule. -/
def word {α : Type} (rule : Rule) (lexeme : Lexeme α) : Pattern α :=
  named rule (cut lexeme)

/-- One pattern, spaces, and another. -/
def spaced {α β : Type} (p : Pattern α) (q : Pattern β) : Pattern (α × β) :=
  both p (after isSpace q)

/-- A literal with the place where it starts. -/
def placed (p : Pattern (Option Literal)) : Pattern Token := fun c t =>
  map (Token.mk c.offset) p c t

def scalar : Pattern Token :=
  placed
    (orElse (map (fun body => (unescape body).map (fun cs => .string (String.ofList cs)))
        (word .stringLit stringLiteral))
      (orElse (map (fun d => some (.number d)) (word .numberLit numberLiteral))
        (orElse (map (fun b => some (.bool b)) (word .boolLit boolLiteral))
          (map (fun _ => some .null) (word .nullLit (keyword "null"))))))

/-- Items parted by a separator, one at least. -/
def separated {α β : Type} (separator : Pattern β) (item : Pattern α) : Pattern (List α) :=
  map (fun found => found.1 :: found.2)
    (both item (repeated (after isSpace (map Prod.snd (spaced separator item)))))

/-- Nothing, or a pattern. -/
def optionally {α : Type} (p : Pattern (List α)) : Pattern (List α) :=
  orElse p (fun c t => (some ([], c), t))

def list : Pattern (List Token) :=
  named .list
    (map (fun found => found.2.1)
      (spaced (char '[') (spaced (optionally (separated (char ',') scalar)) (char ']'))))

def membership : Pattern Draft :=
  named .membership
    (map (fun found => .within found.1 found.2.2)
      (spaced (word .path path) (spaced (word .inOp (keyword "in")) list)))

def presence : Pattern Draft :=
  named .presence
    (map (fun found => .present found.1)
      (spaced (word .path path) (word .prOp (keyword "pr"))))

def comparison : Pattern Draft :=
  named .comparison
    (map (fun found => .compare found.1 found.2.1 found.2.2)
      (spaced (word .path path) (spaced (word .cmpOp comparisonOp) scalar)))

/-- One operand stands for itself. -/
def gather (join : List Draft → Draft) : List Draft → Draft
  | [only] => only
  | operands => join operands

def term (factor : Pattern Draft) : Pattern Draft :=
  named .term (map (gather .and) (separated (word .andOp (keyword "and")) factor))

def expr (factor : Pattern Draft) : Pattern Draft :=
  named .expr (map (gather .or) (separated (word .orOp (keyword "or")) (term factor)))

def negation (factor : Pattern Draft) : Pattern Draft :=
  named .negation (map (fun found => .not found.2) (spaced (word .notOp (keyword "not")) factor))

def group (factor : Pattern Draft) : Pattern Draft :=
  named .group (map (fun found => found.2.1) (spaced (char '(') (spaced (expr factor) (char ')'))))

/-- A factor in which negations and groups nest at most so deep. -/
def factor : Nat → Pattern Draft
  | 0 => never
  | depth + 1 =>
    orElse (negation (factor depth))
      (orElse (group (factor depth)) (orElse membership (orElse presence comparison)))

def endOfQuery : Pattern Unit :=
  word .endOfQuery (fun
    | [] => some ((), [])
    | _ => none)

/-- A whole query. A text cannot nest deeper than it is long. -/
def query (length : Nat) : Pattern Draft :=
  named .query
    (map Prod.fst (spaced (after isSpace (expr (factor (length + 1)))) endOfQuery))

end Grammar

end FlagGovernance.Query
