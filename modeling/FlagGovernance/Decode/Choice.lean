import FlagGovernance.Decode.Record
/-
Reading one of several named alternatives.

An alternative stands as its bare name, or as an object whose only key is the
name and whose value is what the alternative carries.
-/

namespace FlagGovernance

/-- What an alternative carries. -/
inductive Alternative (α : Type)
  | nothing (value : α)
  | carrying (decode : Decoder α)

namespace Decode

variable {α : Type}

/-- A value where nothing is carried: `null`, or an empty object set aside. -/
def nothing : Decoder Unit
  | _, .null => .ok ()
  | .aside, .object [] => .ok ()
  | _, v => wrongType v "unit"

/-- An alternative as a bare name. -/
def Alternative.bare : Alternative α → Except DecodeError α
  | .nothing a => .ok a
  | .carrying _ => .error (.invalidType .unitVariant "newtype variant")

/-- An alternative with a value. -/
def Alternative.applied : Alternative α → Decoder α
  | .nothing a => fun r v => (nothing r v).map (fun _ => a)
  | .carrying d => d

/-- The alternative of a name. -/
def alternative (choices : List (String × Alternative α)) (name : String) :
    Except DecodeError (Alternative α) :=
  match choices.lookup name with
  | some a => .ok a
  | none => .error (.unknownVariant name (choices.map Prod.fst))

/-- One of the alternatives. -/
def choice (choices : List (String × Alternative α)) : Decoder α
  | _, .string name => do
    let a ← alternative choices name
    Alternative.bare a
  | r, .object [(name, v)] => do
    let a ← alternative choices name
    Alternative.applied a r v
  | _, .object _ => .error (.invalidValue .map "map with a single key")
  | _, v => wrongType v "string or map"

/-- One of the alternatives spread over the members of an object: the first
member that names one is it. -/
def spreadChoice (name : String) (choices : List (String × Alternative α))
    (ms : List (String × Json)) : Except DecodeError α :=
  match ms.find? (fun m => choices.any (fun c => c.1 == m.1)) with
  | some (key, v) => do
    let a ← alternative choices key
    Alternative.applied a .aside v
  | none => .error (.noVariant name)

end Decode

end FlagGovernance
