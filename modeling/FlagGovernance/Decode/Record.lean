import FlagGovernance.Decode.Basic
/-
Reading records.

A record is read from an object by the names of its fields or from an array by
their order. All fields are tried. Of an object the refused member with the
least key is told first, and an absent field only when no member is refused; of
an array the first field that is refused or absent.
-/

namespace FlagGovernance

/-- Where the fields of a record are found. -/
inductive FieldSource
  | members (ms : List (String × Json))
  | items (xs : List Json)

def FieldSource.get? : FieldSource → String → Nat → Option Json
  | .members ms, key, _ => Json.member? key ms
  | .items xs, _, place => xs[place]?

/-- What is wrong with one field. -/
inductive FieldFault
  | refused (key : String) (cause : DecodeError)
  | absent (key : String) (place : Nat)
deriving DecidableEq, Repr

/-- A reader of some consecutive fields of a record, which is told the place of
the first of them. -/
structure Record (α : Type) where
  arity : Nat
  read : Reading → FieldSource → Nat → Except (List FieldFault) α

namespace Record

variable {α β : Type}

instance : Functor Record where
  map f x := ⟨x.arity, fun r s place => (x.read r s place).map f⟩

/-- Both parts are read, and the faults of both are kept in order. -/
def andThen (f : Record (α → β)) (x : Unit → Record α) : Record β :=
  ⟨f.arity + (x ()).arity, fun r s place =>
    match f.read r s place, (x ()).read r s (place + f.arity) with
    | .ok g, .ok a => .ok (g a)
    | .ok _, .error faults => .error faults
    | .error faults, .ok _ => .error faults
    | .error before, .error after => .error (before ++ after)⟩

instance : Applicative Record where
  pure a := ⟨0, fun _ _ _ => .ok a⟩
  seq f x := andThen f x

/-- A field; `absence` is its value when nothing is found for it. -/
def field (key : String) (d : Decoder α) (absence : FieldSource → Option α) : Record α :=
  ⟨1, fun r s place =>
    match s.get? key place with
    | some v => (d r v).mapError (fun e => [.refused key e])
    | none =>
      match absence s with
      | some a => .ok a
      | none => .error [.absent key place]⟩

/-- A field that must be there. -/
def required (key : String) (d : Decoder α) : Record α :=
  field key d (fun _ => none)

/-- A field with a value of its own when absent. -/
def defaulted (key : String) (d : Decoder α) (a : α) : Record α :=
  field key d (fun _ => some a)

/-- A field that an object may leave out and an array may not. -/
def nullable (key : String) (d : Decoder α) : Record (Option α) :=
  field key (Decode.option d) (fun
    | .members _ => some none
    | .items _ => none)

/-- A field that may be left out or `null`. -/
def optional (key : String) (d : Decoder α) : Record (Option α) :=
  defaulted key (Decode.option d) none

end Record

namespace FieldFault

def key : FieldFault → String
  | .refused key _ => key
  | .absent key _ => key

/-- The refusals among some faults, with their keys. -/
def refusals : List FieldFault → List (String × DecodeError)
  | [] => []
  | .refused key cause :: rest => (key, cause) :: refusals rest
  | .absent _ _ :: rest => refusals rest

/-- The refusal with the least key. -/
def leastRefusal : List FieldFault → Option (String × DecodeError)
  | faults => (refusals faults).foldl (fun least r =>
      match least with
      | none => some r
      | some l => if r.1 < l.1 then some r else some l) none

/-- The fault to tell about an object. -/
def ofObject (faults : List FieldFault) : DecodeError :=
  match leastRefusal faults with
  | some (_, cause) => cause
  | none =>
    match faults with
    | fault :: _ => .missingField fault.key
    | [] => .missingField ""

/-- Some number of elements, in words. -/
def countText (count : Nat) : String :=
  toString count ++ (if count = 1 then " element" else " elements")

/-- The fault to tell about an array. -/
def ofArray (name : String) (arity : Nat) (faults : List FieldFault) : DecodeError :=
  match faults with
  | .refused _ cause :: _ => cause
  | .absent _ place :: _ =>
    .invalidLength place ("struct " ++ name ++ " with " ++ countText arity)
  | [] => .missingField ""

end FieldFault

namespace Decode

variable {α β : Type}

/-- The record among the members of an object. -/
def members (fields : Record α) (r : Reading) (ms : List (String × Json)) :
    Except DecodeError α :=
  (fields.read r (.members ms) 0).mapError FieldFault.ofObject

/-- What is wanted instead of items past the last field. -/
def overlong (r : Reading) (length arity : Nat) : DecodeError :=
  match r with
  | .direct => .invalidLength length "fewer elements in array"
  | .aside => .invalidLength length (FieldFault.countText arity ++ " in sequence")

/-- The record in the items of an array. -/
def items (name : String) (fields : Record α) (r : Reading) (xs : List Json) :
    Except DecodeError α := do
  let a ← (fields.read r (.items xs) 0).mapError (FieldFault.ofArray name fields.arity)
  if fields.arity < xs.length then throw (overlong r xs.length fields.arity)
  return a

/-- A named record, from an object or an array. -/
def record (name : String) (fields : Record α) : Decoder α
  | r, .object ms => members fields r ms
  | r, .array xs => items name fields r xs
  | _, v => wrongType v ("struct " ++ name)

/-- A named record with a part spread among its own members; only an object will
do. Its own fields come first. -/
def spread (name : String) (own : Record α) (part : List (String × Json) → Except DecodeError β) :
    Decoder (α × β)
  | r, .object ms => do
    let a ← members own r ms
    let b ← part ms
    return (a, b)
  | _, v => wrongType v ("struct " ++ name)

end Decode

end FlagGovernance
