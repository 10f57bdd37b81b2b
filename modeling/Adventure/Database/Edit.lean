/-
# Changing a database

Changes to single parts of a decoded database, for trying out variants of a
game.  Each returns a database; what was there before can be asked for with
the accessors.  A change at a place that does not exist leaves the database
as it is.
-/
import Adventure.Database

namespace Adventure

namespace CommandTable

/-- The command at a position. -/
def get? (t : CommandTable) (i : Nat) : Option Command :=
  (Chain.listOf t)[i]?

/-- A table with commands of its own. -/
def copy (t : CommandTable) : CommandTable :=
  t.map (Chain.copy Command.copy)

/-- The table from a position on. -/
def rest (t : CommandTable) (i : Nat) : CommandTable :=
  Chain.edit (List.drop i) t

/-- The table with another second word at a position. -/
def setWord2 (t : CommandTable) (i : Nat) (word : UInt8) : CommandTable :=
  Chain.edit (fun l => l.modify i fun c => { c with word2 := word }) t

/-- The table with no actions at a position. -/
def dropActions (t : CommandTable) (i : Nat) : CommandTable :=
  Chain.edit (fun l => l.modify i fun c => { c with actions := none }) t

/-- The table without its first command. -/
def dropHead (t : CommandTable) : CommandTable :=
  t.bind Chain.tail?

/-- The table without the commands after a position. -/
def truncate (t : CommandTable) (i : Nat) : CommandTable :=
  Chain.edit (List.take (i + 1)) t

end CommandTable

namespace Database

/-- The rule table of a kind. -/
def table (d : Database) : CommandKind → CommandTable
  | .response => d.responses
  | .process => d.processes

/-- Another rule table in the place of the one of a kind. -/
def setTable (d : Database) (kind : CommandKind) (t : CommandTable) : Database :=
  match kind with
  | .response => { d with responses := t }
  | .process => { d with processes := t }

/-- A database with rule tables of its own. -/
def copy (d : Database) : Database :=
  { d with responses := CommandTable.copy d.responses, processes := CommandTable.copy d.processes }

/-- Give a word a token: the word keeps its place, or comes last when it is new. -/
def setToken (d : Database) (word : String) (token : UInt8) : Database :=
  { d with vocabulary := d.vocabulary.insert word token }

/-- Remove a word; the others keep their order. -/
def removeWord (d : Database) (word : String) : Database :=
  { d with vocabulary := d.vocabulary.erase word }

/-- The destination of a direction at a location. -/
def exit? (d : Database) (location : Nat) (direction : UInt8) : Option UInt8 :=
  (d.exits? location).bind fun e => e.get? direction

/-- Give a direction of a location a destination, if the location has exits. -/
def setExit (d : Database) (location : Nat) (direction destination : UInt8) : Database :=
  { d with connections := d.connections.modify location fun e => e.insert direction destination }

/-- Keep the first `n` positions. -/
def truncatePositions (d : Database) (n : Nat) : Database :=
  { d with positions := d.positions.take n }

end Database
end Adventure
