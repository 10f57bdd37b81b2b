/-
# The export

A database as a TOML document.  Texts, positions and the number of carried
objects are entries of the root; the vocabulary is a table; commands, with
their conditions and actions, and the exits of the locations are arrays of
tables in order.  What is absent is left out: a parameter, the actions of a
command without any, a whole rule table.  An empty array is written as such
where a table could not show it.
-/
import Adventure.Database
import Adventure.Toml.Document

namespace Adventure
namespace Database

open Toml (Scalar Value Entry Block Document)

/-- An entry with a number. -/
def byteEntry (key : String) (b : UInt8) : Entry :=
  ⟨key, .scalar (.integer b.toNat)⟩

/-- An entry for a number that may be absent. -/
def presentEntries (key : String) (b : Option UInt8) : List Entry :=
  b.toList.map (byteEntry key)

/-- An entry with an array of texts. -/
def textsEntry (key : String) (texts : List String) : Entry :=
  ⟨key, .array (texts.map .string)⟩

/-- An entry for an array of tables that has no elements; one that has some
is written as blocks. -/
def emptyEntries {α : Type} (key : String) (items : List α) : List Entry :=
  if items.isEmpty then [⟨key, .array []⟩] else []

/-- The block of a condition. -/
def conditionBlock (table : String) (c : Condition) : Block :=
  ⟨[table, "conditions"], true,
    byteEntry "opcode" c.opcode :: byteEntry "param1" c.param1 :: presentEntries "param2" c.param2⟩

/-- The block of an action. -/
def actionBlock (table : String) (a : Action) : Block :=
  ⟨[table, "actions"], true,
    byteEntry "opcode" a.opcode :: (presentEntries "param1" a.param1 ++ presentEntries "param2" a.param2)⟩

/-- The blocks of a command: its words, its conditions, its actions. -/
def commandBlocks (table : String) (c : Command) : List Block :=
  ⟨[table], true,
    byteEntry "word1" c.word1 :: byteEntry "word2" c.word2 ::
      emptyEntries "conditions" c.conditions⟩ ::
    (c.conditions.map (conditionBlock table) ++ c.actionList.map (actionBlock table))

/-- The blocks of a rule table. -/
def tableBlocks (table : String) (t : CommandTable) : List Block :=
  (Chain.listOf t).flatMap (commandBlocks table)

/-- The block of a location's exits, with directions for keys. -/
def exitsBlock (e : Exits) : Block :=
  ⟨["connections"], true, e.entries.map fun p => byteEntry (toString p.1.toNat) p.2⟩

/-- The block of the vocabulary. -/
def vocabularyBlock (v : Vocabulary) : Block :=
  ⟨["vocabulary"], false, v.entries.map fun p => byteEntry p.1 p.2⟩

/-- The database as a document. -/
def document (d : Database) : Document where
  root :=
    [textsEntry "locations" d.locations, textsEntry "objects" d.objects,
      textsEntry "messages" d.messages] ++
    emptyEntries "connections" d.connections ++
    [⟨"initial_object_positions", .array (d.positions.map fun b => .integer b.toNat)⟩,
      byteEntry "n_objects_carried" d.carried]
  blocks :=
    vocabularyBlock d.vocabulary ::
      (tableBlocks "responses" d.responses ++ tableBlocks "processes" d.processes ++
        d.connections.map exitsBlock)

/-- The database as TOML. -/
def toToml (d : Database) : String :=
  d.document.text

end Database
end Adventure
