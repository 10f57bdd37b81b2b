/-
# Exits

The connection table holds, for each location in turn, a list of pairs of a
direction and a destination, closed by the byte 255 in the place of a
direction.  A location's exits are a map from directions to destinations in
the order of the pairs.
-/
import Adventure.OrderedMap
import Adventure.Reading.Walk
import Adventure.Snapshot

namespace Adventure

/-- The exits of one location: direction to destination. -/
abbrev Exits := OrderedMap UInt8 UInt8

namespace Exits

/-- The byte that closes a location's exits. -/
def endOfExits : UInt8 := 255

/-- The pair at `p`, or the end of the location's exits. -/
def pairAt (m : Snapshot) (p : Nat) : Reading (Step (UInt8 × UInt8)) := do
  let direction ← m.byteAt .connections p 0
  if direction = endOfExits then
    pure (.stop 1)
  else
    let destination ← m.byteAt .connections p 1
    pure (.record (direction, destination) 1)

/-- The pairs of one location. -/
def pairs (m : Snapshot) : Records (UInt8 × UInt8) where
  size := m.size
  step := pairAt m
  note _ _ _ := []
  inside _ _ _ h := m.inside_of_result_bind h

/-- The exits of location `index`, which stand at `p`, and the offset behind them. -/
def read (m : Snapshot) (index p : Nat) : Reading (Exits × Nat) := do
  let (list, next) ← (pairs m).walk p
  let exits : Exits := OrderedMap.ofList list
  Reading.record (.exitsRead index exits.size)
  pure (exits, next)

/-- The exits of `count` locations from `start` on. -/
def readAll (m : Snapshot) (start count : Nat) : Reading (List Exits) := do
  let (rows, _) ← packed (read m) count start
  Reading.record (.connectionsRead rows.length start)
  pure rows

end Exits
end Adventure
