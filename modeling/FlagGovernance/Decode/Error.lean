import FlagGovernance.Json.Basic
import FlagGovernance.Number.Layout
import FlagGovernance.Text.Quoted
import FlagGovernance.Time.Reading
import FlagGovernance.Uuid
/-
Why a document does not have the shape that is wanted of it.
-/

namespace FlagGovernance

/-- What stood where something else was wanted. -/
inductive Found
  | null
  | bool (value : Bool)
  | integer (value : Int)
  | real (value : Double)
  | string (value : String)
  | sequence
  | map
  | unitVariant
deriving DecidableEq, Repr

def Found.of : Json → Found
  | .null => .null
  | .bool b => .bool b
  | .number (.integer i) => .integer i
  | .number (.real d) => .real d
  | .string s => .string s
  | .array _ => .sequence
  | .object _ => .map

def Found.text : Found → String
  | .null => "null"
  | .bool b => "boolean `" ++ (if b then "true" else "false") ++ "`"
  | .integer i => "integer `" ++ toString i ++ "`"
  | .real d => "floating point `" ++ d.documentText ++ "`"
  | .string s => "string " ++ Text.quoted s
  | .sequence => "sequence"
  | .map => "map"
  | .unitVariant => "unit variant"

/-- A refusal to read a document. -/
inductive DecodeError
  | invalidType (found : Found) (wanted : String)
  | invalidValue (found : Found) (wanted : String)
  | invalidLength (length : Nat) (wanted : String)
  | unknownVariant (found : String) (known : List String)
  | missingField (key : String)
  | noVariant (choice : String)
  | date (fault : DateFault)
  | identifier (fault : Uuid.Fault)
deriving DecidableEq, Repr

namespace DecodeError

def ticked (word : String) : String := "`" ++ word ++ "`"

/-- The alternatives to an unknown name. -/
def alternatives : List String → String
  | [] => "there are no variants"
  | [only] => "expected " ++ ticked only
  | [a, b] => "expected " ++ ticked a ++ " or " ++ ticked b
  | names => "expected one of " ++ String.intercalate ", " (names.map ticked)

def message : DecodeError → String
  | .invalidType found wanted => "invalid type: " ++ found.text ++ ", expected " ++ wanted
  | .invalidValue found wanted => "invalid value: " ++ found.text ++ ", expected " ++ wanted
  | .invalidLength length wanted =>
    "invalid length " ++ toString length ++ ", expected " ++ wanted
  | .unknownVariant found known =>
    "unknown variant " ++ ticked found ++ ", " ++ alternatives known
  | .missingField key => "missing field " ++ ticked key
  | .noVariant choice => "no variant of enum " ++ choice ++ " found in flattened data"
  | .date fault => fault.message
  | .identifier fault => "UUID parsing failed: " ++ fault.message

end DecodeError

end FlagGovernance
