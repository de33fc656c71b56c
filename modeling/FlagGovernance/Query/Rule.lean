/-
The rules of the query language by name, and what a message calls them.
-/

namespace FlagGovernance.Query

inductive Rule
  | query | expr | term | negation | group | membership | presence | comparison
  | orOp | andOp | notOp | inOp | prOp | cmpOp | path | list
  | stringLit | numberLit | boolLit | nullLit | endOfQuery
deriving DecidableEq, Repr

/-- What was wanted where a rule did not match. -/
def Rule.wanted : Rule → String
  | .path => "attribute name"
  | .cmpOp | .inOp | .prOp => "operator"
  | .andOp | .orOp => "'and' or 'or'"
  | .notOp => "'not'"
  | .stringLit | .numberLit | .boolLit | .nullLit => "value"
  | .list => "list literal"
  | .endOfQuery => "end of query"
  | .query | .expr | .term | .negation | .group | .membership | .presence | .comparison =>
    "expression"

/-- Alternatives in a row, the last after an `or`. -/
def joined : List String → String
  | [] => ""
  | [only] => only
  | items => String.intercalate ", " items.dropLast ++ " or " ++ items.getLastD ""

/-- Adds a word to an ordered list of words, once. -/
def insertWord (word : String) : List String → List String
  | [] => [word]
  | w :: rest =>
    match compare word w with
    | .lt => word :: w :: rest
    | .eq => w :: rest
    | .gt => w :: insertWord word rest

/-- What was wanted at a place where some rules did not match: each wording once,
in alphabetical order. -/
def wantedText (rules : List Rule) : String :=
  "expected " ++ joined (rules.foldr (fun r words => insertWord r.wanted words) [])

end FlagGovernance.Query
