import FlagGovernance.Decode.Error
import FlagGovernance.Time.Lenient
/-
Reading simple values out of documents.
-/

namespace FlagGovernance

/-- How a value reaches its reader: straight from the document, or out of the
members set aside for a part that is spread over the object around it. The two
differ in a few refusals only. -/
inductive Reading
  | direct
  | aside
deriving DecidableEq, Repr

/-- A reader of documents. -/
abbrev Decoder (α : Type) := Reading → Json → Except DecodeError α

namespace Decode

def wrongType {α : Type} (v : Json) (wanted : String) : Except DecodeError α :=
  .error (.invalidType (.of v) wanted)

/-- Any document, as it is. -/
def json : Decoder Json := fun _ v => .ok v

def bool : Decoder Bool
  | _, .bool b => .ok b
  | _, v => wrongType v "a boolean"

def string : Decoder String
  | _, .string s => .ok s
  | _, v => wrongType v "a string"

/-- A natural number; `wanted` names the machine type it stands for. -/
def natural (wanted : String) : Decoder Nat
  | _, .number (.integer i) =>
    if 0 ≤ i then .ok i.toNat else .error (.invalidValue (.integer i) wanted)
  | _, v => wrongType v wanted

/-- Any number, an integer as the nearest double. -/
def double : Decoder Double
  | _, .number n => .ok n.toDouble
  | _, v => wrongType v "f64"

/-- Nothing for `null`. -/
def option {α : Type} (d : Decoder α) : Decoder (Option α)
  | _, .null => .ok none
  | r, v => (d r v).map some

/-- Every item of an array; the first that is refused decides. -/
def list {α : Type} (d : Decoder α) : Decoder (List α)
  | r, .array items => items.mapM (d r)
  | _, v => wrongType v "a sequence"

/-- Every member of an object, by key. -/
def map {α : Type} (d : Decoder α) : Decoder (OrderedMap String α)
  | r, .object members =>
    (members.mapM (fun m => (d r m.2).map (m.1, ·))).map .ofList
  | _, v => wrongType v "a map"

/-- A moment in the looser form. -/
def instant : Decoder Instant
  | _, .string s => (Instant.ofLoose s).mapError .date
  | _, v => wrongType v "an RFC 3339 formatted date and time string"

def uuid : Decoder Uuid
  | _, .string s => (Uuid.ofText s).mapError .identifier
  | _, v => wrongType v "a UUID string"

end Decode

end FlagGovernance
