/-
# The marker

A database is marked by the bytes 17, 18, 19, 20, 21 at every other place
behind its anchor.  `Signature.locate` finds the lowest anchor from a given
start on; nothing between the five bytes matters, and the last of them may be
the last byte of the snapshot.
-/
import Adventure.Snapshot

namespace Adventure
namespace Signature

/-- Where the search starts when no start is given: below it lie the
machine's ROM and screen. -/
def defaultStart : Nat := 16384

/-- Distance from the anchor to the last byte of the marker. -/
def span : Nat := 10

/-- Whether the marker stands behind `p`. -/
def marks (m : Snapshot) (p : Nat) : Bool :=
  [1, 2, 3, 4, 5].all fun i => m.get? (p + 2 * i) == some (UInt8.ofNat (16 + i))

/-- The lowest anchor from `p` on, and the greatest address tried so far. -/
def search (m : Snapshot) (p reach : Nat) : Option Nat × Nat :=
  if p < m.size then
    let far := max reach (p + span)
    if p + span < m.size then
      if marks m p then (some p, far) else search m (p + 1) far
    else (none, far)
  else (none, reach)
termination_by m.size - p

/-- The anchor of the database that starts lowest from `start` on. -/
def locate (m : Snapshot) (start : Nat) : Reading Nat :=
  match search m start 0 with
  | (some anchor, reach) => ⟨.ok anchor, [.signatureFound anchor], reach⟩
  | (none, reach) =>
      ⟨.error (.signatureNotFound start), [.signatureMissing start m.size], reach⟩

end Signature
end Adventure
