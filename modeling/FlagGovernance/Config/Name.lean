import FlagGovernance.Config.Violation
/-
Names of flags and projects.

A name starts with a letter or digit of ASCII and goes on with those, points,
underscores and hyphens, up to a length of its own for each kind.
-/

namespace FlagGovernance

namespace Name

def starts (c : Char) : Bool := c.isAlphanum

def continues (c : Char) : Bool := c.isAlphanum || c == '.' || c == '_' || c == '-'

/-- A name of at most `limit` characters. -/
def isName (limit : Nat) (text : String) : Bool :=
  match text.toList with
  | [] => false
  | c :: rest => starts c && rest.all continues && rest.length < limit

/-- What is wrong with a text as a name, if anything. -/
def check (limit : Nat) (field what text : String) : Except Violation Unit :=
  if text.isEmpty then .error ⟨field, .missingField what⟩
  else if isName limit text then .ok ()
  else .error ⟨field, .invalidName what text⟩

end Name

def checkFlagKey (key : String) : Except Violation Unit :=
  Name.check 128 "flagKey" "flag key" key

def checkProjectName (name : String) : Except Violation Unit :=
  Name.check 64 "project" "project name" name

end FlagGovernance
