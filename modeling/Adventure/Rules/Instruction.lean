/-
# Conditions and actions

A command is a list of conditions and a chain of actions.  Both are an
opcode with parameters, and both lists are closed by the byte 255, so 255 is
no opcode.  A condition always has a first parameter and has a second one
exactly when its opcode is above 12; an action has what the argument table
of the database version says.

`text` is the short form of a listing, `bytes` the stored form.
-/

namespace Adventure

/-- The byte that closes a list of conditions or of actions. -/
def endOfList : UInt8 := 255

/-- A test made before a command runs. -/
structure Condition where
  opcode : UInt8
  param1 : UInt8
  param2 : Option UInt8
deriving DecidableEq

namespace Condition

/-- The last condition opcode with one parameter. -/
def lastSingle : UInt8 := 12

/-- The condition as stored: its opcode and its parameters. -/
def bytes (c : Condition) : List UInt8 :=
  c.opcode :: c.param1 :: c.param2.toList

/-- The condition in a listing, such as `C13 5 1`. -/
def text (c : Condition) : String :=
  "C" ++ toString c.opcode.toNat ++ " " ++ toString c.param1.toNat ++
    String.join (c.param2.toList.map fun p => " " ++ toString p.toNat)

end Condition

/-- One step of a command. -/
structure Action where
  opcode : UInt8
  param1 : Option UInt8
  param2 : Option UInt8
deriving DecidableEq

namespace Action

/-- The parameters that are present, in order. -/
def params (a : Action) : List UInt8 :=
  a.param1.toList ++ a.param2.toList

/-- The action as stored: its opcode and its parameters. -/
def bytes (a : Action) : List UInt8 :=
  a.opcode :: a.params

/-- The action in a listing, such as `A20 3 4`. -/
def text (a : Action) : String :=
  "A" ++ toString a.opcode.toNat ++
    String.join (a.params.map fun p => " " ++ toString p.toNat)

end Action
end Adventure
