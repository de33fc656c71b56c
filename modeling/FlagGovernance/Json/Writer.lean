import FlagGovernance.Json.Basic
import FlagGovernance.Number.Layout
import FlagGovernance.Text.Hex
/-
Compact JSON text.

Nothing stands between tokens. In strings the quote, the backslash and the
control characters are escaped, so written text holds no raw line break.
-/

namespace FlagGovernance.Json

/-- One character inside a string. -/
def escapedChar (c : Char) : List Char :=
  match c with
  | '"' => ['\\', '"']
  | '\\' => ['\\', '\\']
  | '\n' => ['\\', 'n']
  | '\r' => ['\\', 'r']
  | '\t' => ['\\', 't']
  | '\x08' => ['\\', 'b']
  | '\x0c' => ['\\', 'f']
  | c =>
    if c.toNat < 0x20 then ['\\', 'u', '0', '0', Text.hexDigit (c.toNat / 16), Text.hexDigit c.toNat]
    else [c]

def quoted (text : String) : List Char :=
  '"' :: text.toList.flatMap escapedChar ++ ['"']

def Number.written : Number → List Char
  | .integer i => (toString i).toList
  | .real d => d.documentText.toList

mutual

/-- The compact text of a document, members in the order they are listed. -/
def written : Json → List Char
  | .null => "null".toList
  | .bool true => "true".toList
  | .bool false => "false".toList
  | .number n => Number.written n
  | .string s => quoted s
  | .array [] => ['[', ']']
  | .array (v :: rest) => '[' :: written v ++ writtenItems rest
  | .object [] => ['{', '}']
  | .object ((k, v) :: rest) => '{' :: quoted k ++ ':' :: written v ++ writtenMembers rest

def writtenItems : List Json → List Char
  | [] => [']']
  | v :: rest => ',' :: written v ++ writtenItems rest

def writtenMembers : List (String × Json) → List Char
  | [] => ['}']
  | (k, v) :: rest => ',' :: quoted k ++ ':' :: written v ++ writtenMembers rest

end

/-- The compact text of a document. -/
def text (value : Json) : String :=
  String.ofList (written value)

end FlagGovernance.Json
