/-
# How many parameters an action takes

An action is an opcode followed by parameter bytes, and how many follow is
not written in the bytecode: it depends on the version of the database.  An
`ArgumentTable` says it for each opcode.  One version is known.
-/
import Adventure.Fault

namespace Adventure

/-- The number of parameter bytes behind each action opcode. -/
structure ArgumentTable where
  count : UInt8 → Nat

/-- The database versions whose argument table is known. -/
inductive Version where
  | v0
deriving DecidableEq

namespace Version

/-- The version with a given number. -/
def ofNumber (n : UInt8) : Except Fault Version :=
  if n = 0 then .ok .v0 else .error (.unsupportedVersion n)

/-- The argument table of a version. -/
def arguments : Version → ArgumentTable
  | .v0 => ⟨fun opcode =>
      if opcode ≤ 10 then 0
      else if opcode ≤ 19 ∨ opcode = 21 ∨ opcode = 22 then 1
      else 2⟩

end Version
end Adventure
