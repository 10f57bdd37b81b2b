/-
# Rules field by field

The long form of a rule chain, with every field named and with absent
parameters and absent chains spelled out.  It tells apart what the short
listing form leaves open: a chain that is absent, a parameter that is
absent, and the fields by name.
-/
import Adventure.Rules.Command

namespace Adventure
namespace FieldForm

/-- A value that may be absent. -/
def optional (written : Option String) : String :=
  match written with
  | none => "None"
  | some text => "Some(" ++ text ++ ")"

/-- Items between square brackets. -/
def sequence (items : List String) : String :=
  "[" ++ ", ".intercalate items ++ "]"

/-- A record: its name, and its fields between braces. -/
def record (name : String) (fields : List (String × String)) : String :=
  name ++ " \x7b " ++ ", ".intercalate (fields.map fun f => f.1 ++ ": " ++ f.2) ++ " \x7d"

/-- A byte in decimal. -/
def byte (b : UInt8) : String :=
  toString b.toNat

/-- A byte that may be absent. -/
def byte? (b : Option UInt8) : String :=
  optional (b.map byte)

/-- A condition. -/
def condition (c : Condition) : String :=
  record "Condition"
    [("opcode", byte c.opcode), ("param1", byte c.param1), ("param2", byte? c.param2)]

/-- An action. -/
def action (a : Action) : String :=
  record "ActionRecord"
    [("opcode", byte a.opcode), ("param1", byte? a.param1), ("param2", byte? a.param2)]

/-- A chain of actions that may be absent. -/
def actions (chain : Option (Chain Action)) : String :=
  optional (chain.map fun c => sequence (c.toList.map action))

/-- A command. -/
def command (c : Command) : String :=
  record "CommandRecord"
    [("word1", byte c.word1), ("word2", byte c.word2),
     ("conditions", sequence (c.conditions.map condition)), ("actions", actions c.actions)]

/-- A rule table that may be absent. -/
def commands (table : CommandTable) : String :=
  optional (table.map fun c => sequence (c.toList.map command))

end FieldForm
end Adventure
