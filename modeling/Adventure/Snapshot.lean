/-
# Snapshots

A snapshot is the memory of the machine, byte by byte.  The three bounded
reads are a byte, a little-endian word and a run of bytes.  A read that
leaves the snapshot is a fault of the section it was done for, at the first
byte that is missing.

Every byte is read at a base address and a displacement, so that each sum of
addresses that a reading forms goes through `byteAt` or `slice` and counts
for its reach.
-/
import Adventure.Reading

namespace Adventure

/-- A memory snapshot. -/
structure Snapshot where
  bytes : Array UInt8

/-- Addresses are below this bound. -/
def addressLimit : Nat := UInt64.size

namespace Snapshot

/-- The number of bytes. -/
def size (m : Snapshot) : Nat :=
  m.bytes.size

/-- The byte at an address, where running off the end is no fault. -/
def get? (m : Snapshot) (a : Nat) : Option UInt8 :=
  m.bytes[a]?

/-- The byte `k` after the address `a`. -/
def byteAt (m : Snapshot) (part : Section) (a k : Nat) : Reading UInt8 :=
  match m.get? (a + k) with
  | some b => ⟨.ok b, [], a + k⟩
  | none => ⟨.error (.malformed part (a + k)), [], a + k⟩

/-- The byte at an address. -/
def byte (m : Snapshot) (part : Section) (a : Nat) : Reading UInt8 :=
  m.byteAt part a 0

/-- The little-endian word `k` after the address `a`; its low byte is read first. -/
def wordAt (m : Snapshot) (part : Section) (a k : Nat) : Reading Nat := do
  let low ← m.byteAt part a k
  let high ← m.byteAt part (a + k) 1
  pure (low.toNat + 256 * high.toNat)

/-- The little-endian word at an address. -/
def word (m : Snapshot) (part : Section) (a : Nat) : Reading Nat :=
  m.wordAt part a 0

/-- The run of `len` bytes from `a` on.  A run whose end is no address fails
at its start, and one that leaves the snapshot at its first missing byte. -/
def slice (m : Snapshot) (part : Section) (a len : Nat) : Reading (List UInt8) :=
  let stop := a + len
  if stop < addressLimit then
    if stop ≤ m.size then
      ⟨.ok ((m.bytes.extract a stop).toList), [], stop⟩
    else
      ⟨.error (.malformed part (min stop (max m.size a))), [], stop⟩
  else
    ⟨.error (.malformed part a), [], stop⟩

/-! ## Where reads succeed -/

theorem result_byteAt (m : Snapshot) (part : Section) (a k : Nat) :
    (m.byteAt part a k).result =
      match m.get? (a + k) with
      | some b => .ok b
      | none => .error (.malformed part (a + k)) := by
  unfold byteAt
  split <;> simp_all

/-- A byte that can be read is inside the snapshot. -/
theorem inside_of_result_byteAt (m : Snapshot) {part : Section} {a k : Nat} {b : UInt8}
    (h : (m.byteAt part a k).result = .ok b) : a + k < m.size := by
  rw [result_byteAt] at h
  by_cases hk : a + k < m.size
  · exact hk
  · have : m.get? (a + k) = none := Array.getElem?_eq_none (Nat.le_of_not_lt hk)
    simp [this] at h

/-- What starts with a byte and succeeds starts inside the snapshot. -/
theorem inside_of_result_bind (m : Snapshot) {α : Type} {part : Section} {a k : Nat}
    {next : UInt8 → Reading α} {x : α}
    (h : (m.byteAt part a k >>= next).result = .ok x) : a < m.size := by
  rw [Reading.result_bind] at h
  cases hb : (m.byteAt part a k).result with
  | error f => rw [hb] at h; cases h
  | ok b => exact Nat.lt_of_le_of_lt (Nat.le_add_right a k) (m.inside_of_result_byteAt hb)

end Snapshot
end Adventure
