import FlagGovernance.Text.Case
/-
Media types, as far as it takes to tell JSON.

A media type is a type, a subtype and parameters. The part of the subtype after
its last plus sign is its suffix. Types are compared without regard to case.
-/

namespace FlagGovernance.Api

structure MediaType where
  kind : List Char
  subtype : List Char
  suffix : Option (List Char)
deriving DecidableEq, Repr

namespace MediaType

/-- A character of names and of bare values. -/
def isTokenChar (c : Char) : Bool :=
  c.isAlphanum || "!#$%&'*+-.^_`|~".toList.contains c

/-- Where a reader of parameters stands; `started` tells whether the part has a
character yet. -/
inductive Place
  | name (started : Bool)
  | bare (started : Bool)
  | quoted (started : Bool)
  | closed
deriving DecidableEq, Repr

/-- The parameters are well-formed from a place on. -/
def parametersFrom : Place → List Char → Bool
  | .name started, [] => !started
  | .quoted _, [] => false
  | _, [] => true
  | .name started, c :: rest =>
    if c == ' ' && !started then parametersFrom (.name false) rest
    else if c == '=' && started then parametersFrom (.bare false) rest
    else isTokenChar c && parametersFrom (.name true) rest
  | .bare started, c :: rest =>
    if c == '"' && !started then parametersFrom (.quoted false) rest
    else if c == ';' && started then parametersFrom (.name false) rest
    else isTokenChar c && parametersFrom (.bare true) rest
  | .quoted started, c :: rest =>
    if c == '"' && started then parametersFrom .closed rest
    else 31 < c.toNat && c.toNat != 127 && parametersFrom (.quoted true) rest
  | .closed, c :: rest =>
    if c == ';' then parametersFrom (.name false) rest
    else c == ' ' && parametersFrom .closed rest

/-- A subtype cut at its last plus sign, unless that is its first character. -/
def cutSuffix (subtype : List Char) : List Char × Option (List Char) :=
  let suffix := (subtype.reverse.takeWhile (· != '+')).reverse
  let before := subtype.length - suffix.length - 1
  if subtype.contains '+' && 0 < before then (subtype.take before, some suffix)
  else (subtype, none)

/-- The media type that a text spells. -/
def ofText? (text : String) : Option MediaType :=
  let chars := Text.lowerAscii text.toList
  let kind := chars.takeWhile isTokenChar
  match chars.dropWhile isTokenChar with
  | '/' :: rest =>
    let subtype := rest.takeWhile isTokenChar
    let wellFormed :=
      match rest.dropWhile isTokenChar with
      | [] => true
      | c :: parameters =>
        !subtype.isEmpty && c == ';' && parametersFrom (.name false) parameters
    let (subtype, suffix) := cutSuffix subtype
    if !kind.isEmpty && wellFormed then some ⟨kind, subtype, suffix⟩ else none
  | _ => none

/-- The media type is JSON, or a format that is written in JSON. -/
def isJson (m : MediaType) : Bool :=
  m.kind == "application".toList &&
    (m.subtype == "json".toList || m.suffix == some "json".toList)

end MediaType

end FlagGovernance.Api
