import FlagGovernance.Query.Parse
import FlagGovernance.Decode.Choice
/-
The JSON form of queries.

Every node is an object with one key, the kind of node; an operator is its
keyword. A number that is not finite has no JSON form and is written `null`.
-/

namespace FlagGovernance

open Decode

def Literal.toJson : Literal → Json
  | .string s => .object [("Str", .string s)]
  | .number d => .object [("Num", .ofDouble d)]
  | .bool b => .object [("Bool", .bool b)]
  | .null => .string "Null"

def Literal.decode : Decoder Literal :=
  choice
    [("Str", .carrying fun r v => (Decode.string r v).map .string),
     ("Num", .carrying fun r v => (Decode.double r v).map .number),
     ("Bool", .carrying fun r v => (Decode.bool r v).map .bool),
     ("Null", .nothing .null)]

def Operator.toJson (op : Operator) : Json := .string op.keyword

def Operator.decode : Decoder Operator :=
  choice (Operator.all.map (fun op => (op.keyword, .nothing op)))

namespace Expr

mutual

def toJson : Expr → Json
  | .or operands => .object [("Or", .array (allToJson operands))]
  | .and operands => .object [("And", .array (allToJson operands))]
  | .not operand => .object [("Not", toJson operand)]
  | .compare path op value =>
    .object [("Compare", .object
      [("attribute", .string path), ("op", op.toJson), ("value", value.toJson)])]
  | .within path values =>
    .object [("In", .object
      [("attribute", .string path), ("values", .array (values.map Literal.toJson))])]
  | .present path => .object [("Present", .object [("attribute", .string path)])]

def allToJson : List Expr → List Json
  | [] => []
  | e :: rest => toJson e :: allToJson rest

end

/-- The kinds of node by name. -/
def kinds : List String := ["Or", "And", "Not", "Compare", "In", "Present"]

def comparison : Record Expr :=
  ExprOf.compare <$> .required "attribute" string <*> .required "op" Operator.decode
    <*> .required "value" Literal.decode

def membership : Record Expr :=
  ExprOf.within <$> .required "attribute" string <*> .required "values" (Decode.list Literal.decode)

def presence : Record Expr :=
  ExprOf.present <$> .required "attribute" string

/-- A node that has its fields in an object. -/
def leaf (record : Record Expr) : Decoder Expr
  | r, .object ms => members record r ms
  | _, v => wrongType v "struct variant"

mutual

def ofJson : Json → Except DecodeError Expr
  | .string name =>
    if name ∈ ["Or", "And", "Not"] then .error (.invalidType .unitVariant "newtype variant")
    else if name ∈ kinds then .error (.invalidType .unitVariant "struct variant")
    else .error (.unknownVariant name kinds)
  | .object [(name, v)] =>
    match name with
    | "Or" => (operandsOfJson v).map .or
    | "And" => (operandsOfJson v).map .and
    | "Not" => (ofJson v).map .not
    | "Compare" => leaf comparison .direct v
    | "In" => leaf membership .direct v
    | "Present" => leaf presence .direct v
    | _ => .error (.unknownVariant name kinds)
  | .object _ => .error (.invalidValue .map "map with a single key")
  | v => wrongType v "string or map"

def operandsOfJson : Json → Except DecodeError (List Expr)
  | .array items => allOfJson items
  | v => wrongType v "a sequence"

def allOfJson : List Json → Except DecodeError (List Expr)
  | [] => .ok []
  | v :: rest => do
    let e ← ofJson v
    let more ← allOfJson rest
    return e :: more

end

/-- Reads a query from its JSON form. -/
def decode : Decoder Expr := fun _ v => ofJson v

end Expr

end FlagGovernance
