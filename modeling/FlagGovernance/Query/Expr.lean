import FlagGovernance.Number.Double
import FlagGovernance.Text.Case
/-
Targeting queries as trees.

A tree is built over any type of literals; `Expr` has the literals of a query
that was read to the end. `attributes` lists the paths at the leaves, each where
it first stands.
-/

namespace FlagGovernance

/-- A value to compare with. -/
inductive Literal
  | string (value : String)
  | number (value : Double)
  | bool (value : Bool)
  | null
deriving DecidableEq, Repr

/-- The operators, each known by a keyword of two letters. -/
inductive Operator
  | eq | ne | lt | le | gt | ge | co | sw | ew | within | present
deriving DecidableEq, Repr

namespace Operator

def all : List Operator :=
  [eq, ne, lt, le, gt, ge, co, sw, ew, within, present]

def keyword : Operator → String
  | eq => "eq"
  | ne => "ne"
  | lt => "lt"
  | le => "le"
  | gt => "gt"
  | ge => "ge"
  | co => "co"
  | sw => "sw"
  | ew => "ew"
  | within => "in"
  | present => "pr"

/-- The operator of a keyword in any mixture of case. -/
def ofKeyword? (word : String) : Option Operator :=
  let lowered := String.ofList (Text.lowerAscii word.toList)
  all.find? (fun op => op.keyword == lowered)

end Operator

/-- A query over literals of type `L`. -/
inductive ExprOf (L : Type)
  | or (operands : List (ExprOf L))
  | and (operands : List (ExprOf L))
  | not (operand : ExprOf L)
  | compare (path : String) (op : Operator) (value : L)
  | within (path : String) (values : List L)
  | present (path : String)
deriving Repr

abbrev Expr := ExprOf Literal

namespace ExprOf

variable {L M ε : Type}

instance : Inhabited (ExprOf L) := ⟨.present ""⟩

mutual

/-- Every literal taken through a check, from left to right; the first that
fails decides. -/
def resolve (f : L → Except ε M) : ExprOf L → Except ε (ExprOf M)
  | .or operands => (resolveAll f operands).map .or
  | .and operands => (resolveAll f operands).map .and
  | .not operand => (resolve f operand).map .not
  | .compare path op value => (f value).map (.compare path op)
  | .within path values => (values.mapM f).map (.within path)
  | .present path => .ok (.present path)

def resolveAll (f : L → Except ε M) : List (ExprOf L) → Except ε (List (ExprOf M))
  | [] => .ok []
  | e :: rest => do
    let e ← resolve f e
    let rest ← resolveAll f rest
    return e :: rest

end

/-- The list with a name at its end, unless it has it. -/
def note (found : List String) (path : String) : List String :=
  if path ∈ found then found else found ++ [path]

mutual

/-- Adds the attributes of a query to those already found. -/
def collect (found : List String) : ExprOf L → List String
  | .or operands => collectAll found operands
  | .and operands => collectAll found operands
  | .not operand => collect found operand
  | .compare path _ _ => note found path
  | .within path _ => note found path
  | .present path => note found path

def collectAll (found : List String) : List (ExprOf L) → List String
  | [] => found
  | e :: rest => collectAll (collect found e) rest

end

/-- The attributes of a query in order of first appearance. -/
def attributes (e : ExprOf L) : List String := collect [] e

end ExprOf

end FlagGovernance
