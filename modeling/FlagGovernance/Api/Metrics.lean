import FlagGovernance.OrderedMap
/-
Counters of committed transitions, and their text.
-/

namespace FlagGovernance.Api

/-- How often each action was counted. -/
abbrev Metrics := OrderedMap String Nat

namespace Metrics

def count (m : Metrics) (action : String) : Nat := (m.find? action).getD 0

def record (m : Metrics) (action : String) : Metrics := m.insert action (m.count action + 1)

def name : String := "rollgate_change_request_transitions_total"

/-- The value of a label, with its special characters escaped. -/
def labelText (label : String) : String :=
  String.ofList (label.toList.flatMap (fun
    | '\\' => ['\\', '\\']
    | '\n' => ['\\', 'n']
    | '"' => ['\\', '"']
    | c => [c]))

/-- One line for each action, in order, after two lines about the counter; nothing
when nothing was counted. -/
def text (m : Metrics) : String :=
  if m.isEmpty then ""
  else
    "# HELP " ++ name ++ " Committed change request transitions\n" ++
    "# TYPE " ++ name ++ " counter\n" ++
    String.join (m.entries.map (fun e =>
      name ++ "\x7baction=\"" ++ labelText e.1 ++ "\"\x7d " ++ toString e.2 ++ "\n"))

end Metrics

end FlagGovernance.Api
