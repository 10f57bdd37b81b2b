/-
# The header

The header says how many objects, locations and messages there are, how many
objects the player starts with, and where each table begins.  `Header` holds
it with every table already resolved to the offset of its first byte;
`Header.listing` is the labelled form shown in the log.
-/
import Adventure.Numeral

namespace Adventure

/-- Counts and table offsets of a database. -/
structure Header where
  /-- Offset of the marker from which the header was found. -/
  anchor : Nat
  carried : UInt8
  objectCount : UInt8
  locationCount : UInt8
  messageCount : UInt8
  responses : Nat
  processes : Nat
  objects : Nat
  locations : Nat
  messages : Nat
  connections : Nat
  vocabulary : Nat
  positions : Nat
deriving DecidableEq

namespace Header

/-- Distance from the marker's anchor to the first header byte. -/
def distance : Nat := 13

/-- The rows of the labelled form: a label and its value. -/
def rows (h : Header) : List (String × String) :=
  [("Signature address:        ", Numeral.address h.anchor),
   ("Objects carried:          ", toString h.carried.toNat),
   ("Number of objects:        ", toString h.objectCount.toNat),
   ("Number of locations:      ", toString h.locationCount.toNat),
   ("Number of messages:       ", toString h.messageCount.toNat),
   ("Response table:           ", Numeral.address h.responses),
   ("Process table:            ", Numeral.address h.processes),
   ("Object descriptions:      ", Numeral.address h.objects),
   ("Location descriptions:    ", Numeral.address h.locations),
   ("Message table:            ", Numeral.address h.messages),
   ("Connection table:         ", Numeral.address h.connections),
   ("Vocabulary:               ", Numeral.address h.vocabulary),
   ("Initial positions:        ", Numeral.address h.positions)]

/-- The labelled form: an empty line, then one row a line. -/
def listing (h : Header) : String :=
  "\n" ++ String.join (h.rows.map fun row => row.1 ++ row.2 ++ "\n")

end Header
end Adventure
