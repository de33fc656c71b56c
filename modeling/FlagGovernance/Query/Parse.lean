import FlagGovernance.Query.Grammar
import FlagGovernance.Text.Blank
/-
From the text of a query to its tree.

A text that is no query is refused at the furthest place where something else was
wanted. A text that is one can still hold a string escape that stands for no
character; the first such string is then refused.
-/

namespace FlagGovernance

namespace Query

/-- What is wrong with a query. -/
inductive Fault
  | blank
  | unexpected (attempted : List Rule)
  | badEscape
deriving DecidableEq, Repr

def Fault.text : Fault → String
  | .blank => "query is empty"
  | .unexpected attempted => wantedText attempted
  | .badEscape => "invalid escape sequence"

/-- Line and column, both from one, of the place after some text. A line ends at
a line feed, with or without a carriage return before it. -/
def placeAfter : Nat → Nat → List Char → Nat × Nat
  | line, column, [] => (line, column)
  | line, _, '\r' :: '\n' :: rest => placeAfter (line + 1) 1 rest
  | line, _, '\n' :: rest => placeAfter (line + 1) 1 rest
  | line, column, _ :: rest => placeAfter line (column + 1) rest

end Query

/-- A malformed query: where, and why. -/
structure SyntaxError where
  line : Nat
  column : Nat
  fault : Query.Fault
deriving DecidableEq, Repr

namespace SyntaxError

def detail (e : SyntaxError) : String := e.fault.text

def message (e : SyntaxError) : String :=
  "syntax error at line " ++ toString e.line ++ ", column " ++ toString e.column ++ ": " ++ e.detail

/-- The fault at a place in a text. -/
def atOffset (text : List Char) (offset : Nat) (fault : Query.Fault) : SyntaxError :=
  let (line, column) := Query.placeAfter 1 1 (text.take offset)
  ⟨line, column, fault⟩

end SyntaxError

namespace Query

/-- The value of a token, or the place of a string that has none. -/
def Token.literal (token : Token) : Except Nat Literal :=
  match token.value with
  | some literal => .ok literal
  | none => .error token.offset

/-- The tree of a query. -/
def parse (text : String) : Except SyntaxError Expr :=
  if Text.allBlank text then .error ⟨1, 1, .blank⟩
  else
    let chars := text.toList
    match Grammar.query chars.length ⟨0, chars⟩ .start with
    | (none, trace) => .error (.atOffset chars trace.furthest (.unexpected trace.rules))
    | (some (draft, _), _) =>
      (draft.resolve Token.literal).mapError (fun offset => .atOffset chars offset .badEscape)

/-- Whether a text is a query. -/
def check (text : String) : Except SyntaxError Unit :=
  (parse text).map (fun _ => ())

end Query

end FlagGovernance
