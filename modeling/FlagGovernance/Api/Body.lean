import FlagGovernance.Change.Request
import FlagGovernance.Json.Reader
/-
Bodies of requests.

A body is read in the order of its text, and the first thing that is wrong
decides whether it is malformed, that is no JSON, or misshapen, that is JSON of
another shape. Members that no field asks for only have to be JSON.
-/

namespace FlagGovernance.Api

inductive BodyFault
  | malformed
  | misshapen
deriving DecidableEq, Repr

/-- A reader of one value of a body. -/
abbrev BodyReader (α : Type) := Json.Tree → Except BodyFault α

namespace BodyReader

def string : BodyReader String
  | .string s => .ok s
  | .broken | .unusable => .error .malformed
  | _ => .error .misshapen

/-- Nothing for `null`. -/
def option {α : Type} (read : BodyReader α) : BodyReader (Option α)
  | .null => .ok none
  | t => (read t).map some

/-- Any document nested less deep than `depth`. -/
def json (depth : Nat) : BodyReader Json := fun t =>
  match t.toJson? depth with
  | some v => .ok v
  | none => .error .malformed

/-- What carries nothing. -/
def nothing : BodyReader Unit
  | .null => .ok ()
  | .broken | .unusable => .error .malformed
  | _ => .error .misshapen

/-- One of some named values: its name, or an object of its name and `null`. A
value that is neither text nor object is not even looked at. -/
def named {α : Type} (choices : List (String × α)) : BodyReader α
  | .string name => known name
  | .object ((some name, t) :: rest) => do
    let a ← known name
    nothing t
    if rest.isEmpty then return a else throw .malformed
  | _ => .error .malformed
where
  known (name : String) : Except BodyFault α :=
    match choices.lookup name with
    | some a => .ok a
    | none => .error .misshapen

/-- What no field asks for. -/
def ignored : BodyReader Unit := fun t =>
  if t.isWhole then .ok () else .error .malformed

end BodyReader

/-- A field of a form: its key, what its value has to be, and whether it must be
there. -/
structure FormField where
  key : String
  accepts : BodyReader Unit
  required : Bool

/-- Some fields and what they make together. `gather` is only asked about forms
whose fields have been accepted. -/
structure Form (α : Type) where
  fields : List FormField
  gather : (String → Option Json.Tree) → Except BodyFault α

namespace Form

variable {α β : Type}

instance : Functor Form where
  map f x := ⟨x.fields, fun find => (x.gather find).map f⟩

instance : Applicative Form where
  pure a := ⟨[], fun _ => .ok a⟩
  seq f x := ⟨f.fields ++ (x ()).fields, fun find => do
    let g ← f.gather find
    let a ← (x ()).gather find
    return g a⟩

/-- A field that must be there. -/
def required (key : String) (read : BodyReader α) : Form α :=
  ⟨[⟨key, fun t => (read t).map (fun _ => ()), true⟩], fun find =>
    match find key with
    | some t => read t
    | none => .error .misshapen⟩

/-- A field with a value of its own when it is absent. -/
def defaulted (key : String) (read : BodyReader α) (a : α) : Form α :=
  ⟨[⟨key, fun t => (read t).map (fun _ => ()), false⟩], fun find =>
    match find key with
    | some t => read t
    | none => .ok a⟩

/-- A field that may be absent or `null`. -/
def optional (key : String) (read : BodyReader α) : Form (Option α) :=
  defaulted key (.option read) none

/-- Goes through the members of an object. A field is taken once. -/
def walkMembers (fields : List FormField) :
    List (String × Json.Tree) → List (Option String × Json.Tree) →
      Except BodyFault (List (String × Json.Tree))
  | found, [] => .ok found
  | _, (none, _) :: _ => .error .malformed
  | found, (some key, t) :: rest =>
    match fields.find? (fun f => f.key == key) with
    | none => do
      BodyReader.ignored t
      walkMembers fields found rest
    | some field => do
      if found.any (fun m => m.1 == key) then throw .misshapen
      field.accepts t
      walkMembers fields (found ++ [(key, t)]) rest

/-- Goes through the items of an array, one for each field in order. -/
def walkItems : List FormField → List Json.Tree → Except BodyFault (List (String × Json.Tree))
  | [], [] => .ok []
  | [], _ :: _ => .error .malformed
  | field :: fields, [] =>
    if field.required then .error .misshapen else walkItems fields []
  | field :: fields, t :: rest => do
    field.accepts t
    let found ← walkItems fields rest
    return (field.key, t) :: found

/-- Reads a form from an object or an array. -/
def read (form : Form α) : BodyReader α
  | .object members => do
    let found ← walkMembers form.fields [] members
    form.gather (fun key => found.lookup key)
  | .array items => do
    let found ← walkItems form.fields items
    form.gather (fun key => found.lookup key)
  | .broken | .unusable => .error .malformed
  | _ => .error .misshapen

end Form

/-- Reads a body to its end. -/
def readBody {α : Type} (read : BodyReader α) (body : String) : Except BodyFault α :=
  let (tree, atEnd) := Json.treeOf body.toList
  match read tree with
  | .ok a => if atEnd then .ok a else .error .malformed
  | .error fault => .error fault

/-- A body that is any document. -/
def documentBody : BodyReader Json := .json Json.Tree.depthLimit

/-- A body that asks whether a text is a query. -/
def queryBody : BodyReader String :=
  (Form.required "query" .string).read

/-- The word for a decision, and a comment. -/
def reviewBody : BodyReader (String × Option String) :=
  (Prod.mk <$> Form.required "decision" .string <*> Form.optional "comment" .string).read

def proposalBody : BodyReader Proposal :=
  (Proposal.mk <$> Form.required "title" .string <*> Form.optional "description" .string
    <*> Form.defaulted "resourceType"
      (.named ([ResourceType.flag, .segment, .flagset].map (fun t => (t.name, t)))) .flag
    <*> Form.required "project" .string <*> Form.required "flagKey" .string
    <*> Form.required "proposedConfig" (.json (Json.Tree.depthLimit - 1))).read

end FlagGovernance.Api
