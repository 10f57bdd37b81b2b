/-
# Resolving the header

Behind the marker stand four counts and eight words, in the order of
`Header`.  The response, process, vocabulary and position words point at
their tables.  The object, location, message and connection words point at a
cell, and the cell points at the table; a cell is read as soon as its word
has been read, on behalf of the section it leads to, and so the first
failing read decides which section is blamed.
-/
import Adventure.Snapshot

namespace Adventure
namespace Header

/-- The `n`th word of a header whose counts start at `base`. -/
def field (m : Snapshot) (base n : Nat) : Reading Nat :=
  m.wordAt .header base (4 + 2 * n)

/-- The table behind the `n`th word, which names a cell. -/
def throughCell (m : Snapshot) (base n : Nat) (part : Section) : Reading Nat := do
  let cell ← field m base n
  m.word part cell

/-- The header behind an anchor, whether or not the marker stands there. -/
def resolve (m : Snapshot) (anchor : Nat) : Reading Header := do
  let carried ← m.byteAt .header anchor distance
  let base := anchor + distance
  let objectCount ← m.byteAt .header base 1
  let locationCount ← m.byteAt .header base 2
  let messageCount ← m.byteAt .header base 3
  let responses ← field m base 0
  let processes ← field m base 1
  let objects ← throughCell m base 2 .objects
  let locations ← throughCell m base 3 .locations
  let messages ← throughCell m base 4 .messages
  let connections ← throughCell m base 5 .connections
  let vocabulary ← field m base 6
  let positions ← field m base 7
  let header : Header :=
    { anchor, carried, objectCount, locationCount, messageCount, responses, processes,
      objects, locations, messages, connections, vocabulary, positions }
  Reading.record (.headerRead header)
  pure header

end Header
end Adventure
