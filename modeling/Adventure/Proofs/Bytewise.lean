/-
# Three ways to read the same bytes

A run of bytes can be read at once with `slice`, or one byte after another,
which is `bytewise`; two bytes can also be read as a word.  Both ways to read
a run are characterised by the bytes that the snapshot holds, and as long as
its end is an address, both fail at the first byte that is missing; so they
come to the same.

They differ in two places.  A run whose end is no address is refused by
`slice` at its start, even where a byte stands there.  A run without bytes
reads nothing, and is still refused when it starts behind the end of the
snapshot.  The main statement is `reads_agree`, for every snapshot and all
addresses and lengths.
-/
import Adventure.Proofs.Held
import Mathlib.Data.List.Basic
import Mathlib.Data.Nat.Digits.Defs

namespace Adventure
namespace Snapshot

variable {m : Snapshot} {part : Section} {a len : Nat} {bytes : List UInt8} {f : Fault}

/-! ## Byte by byte -/

/-- The `len` bytes from `a` on, each with a read of its own. -/
def bytewise (m : Snapshot) (part : Section) (a len : Nat) : Reading (List UInt8) :=
  (List.range' a len).mapM (m.byte part)

theorem bytewise_zero : m.bytewise part a 0 = pure [] := by
  simp [bytewise]

theorem bytewise_succ : m.bytewise part a (len + 1) =
    m.byte part a >>= fun b => m.bytewise part (a + 1) len >>= fun rest => pure (b :: rest) := by
  rw [bytewise, List.range'_succ, List.mapM_cons]
  rfl

/-- What is read byte by byte is the run that the snapshot holds there. -/
theorem bytewise_eq_ok_iff :
    (m.bytewise part a len).result = .ok bytes ↔ bytes.length = len ∧ m.Holds a bytes := by
  induction len generalizing a bytes with
  | zero =>
      rw [bytewise_zero, Reading.result_pure, List.length_eq_zero_iff]
      refine ⟨?_, ?_⟩
      · intro h
        cases h
        exact ⟨rfl, holds_nil⟩
      · intro h
        rw [h.1]
  | succ len ih =>
      rw [bytewise_succ]
      simp only [Reading.bind_eq_ok_iff, byte, byteAt_eq_ok_iff, ih, Reading.result_pure,
        Except.ok.injEq, Nat.add_zero]
      refine ⟨?_, ?_⟩
      · intro h
        obtain ⟨b, hb, rest, ⟨hlen, hrest⟩, rfl⟩ := h
        exact ⟨by rw [List.length_cons, hlen], holds_cons.2 ⟨hb, hrest⟩⟩
      · intro h
        obtain ⟨hlen, hheld⟩ := h
        cases bytes with
        | nil => cases hlen
        | cons b rest =>
            obtain ⟨hb, hrest⟩ := holds_cons.1 hheld
            exact ⟨b, hb, rest, ⟨Nat.succ.inj hlen, hrest⟩, rfl⟩

/-- Reading byte by byte stops at the first byte that is missing. -/
theorem bytewise_eq_error_iff :
    (m.bytewise part a len).result = .error f ↔
      0 < len ∧ m.size < a + len ∧ f = .malformed part (max a m.size) := by
  induction len generalizing a with
  | zero => simp [bytewise_zero]
  | succ len ih =>
      rw [bytewise_succ]
      simp only [Reading.bind_eq_error_iff, byte, byteAt_eq_error_iff, byteAt_eq_ok_iff, ih,
        Reading.result_pure, reduceCtorEq, and_false, exists_false, or_false, Nat.add_zero]
      refine ⟨?_, ?_⟩
      · intro h
        rcases h with ⟨hsize, rfl⟩ | ⟨b, hb, hlen, hsize, rfl⟩
        · exact ⟨Nat.succ_pos len, by omega, by rw [Nat.max_eq_left hsize]⟩
        · have hin := lt_size_of_get? hb
          refine ⟨Nat.succ_pos len, by omega, ?_⟩
          rw [show max (a + 1) m.size = max a m.size by omega]
      · intro h
        obtain ⟨-, hsize, rfl⟩ := h
        by_cases hin : a < m.size
        · -- The first byte is there, and so the one that is missing is among the others.
          obtain ⟨b, hb⟩ := exists_get? hin
          refine .inr ⟨b, hb, by omega, by omega, ?_⟩
          rw [show max (a + 1) m.size = max a m.size by omega]
        · exact .inl ⟨by omega, by rw [Nat.max_eq_left (by omega)]⟩

/-! ## At once -/

/-- At once or byte by byte, the run and the fault are the same. -/
theorem result_slice_eq_bytewise (hlen : 0 < len) (hlimit : a + len < addressLimit) :
    (m.slice part a len).result = (m.bytewise part a len).result := by
  cases hread : (m.bytewise part a len).result with
  | ok bytes =>
      obtain ⟨hlength, hheld⟩ := bytewise_eq_ok_iff.1 hread
      have hinside : a + bytes.length ≤ m.size := hheld.le_size (List.length_pos_iff.1 (by omega))
      exact slice_eq_ok_iff.2 ⟨hlimit, hlength ▸ hinside, hlength, hheld⟩
  | error f =>
      obtain ⟨-, hsize, rfl⟩ := bytewise_eq_error_iff.1 hread
      exact (slice_eq_error_iff hlimit).2 ⟨hsize, rfl⟩

/-- The number that bytes spell, the least of them first. -/
def littleEndian (bytes : List UInt8) : Nat :=
  Nat.ofDigits 256 (bytes.map UInt8.toNat)

/-- A word is the number that a run of two bytes spells. -/
theorem result_word_eq_slice (hlimit : a + 2 < addressLimit) :
    (m.word part a).result = (m.slice part a 2).result.map littleEndian := by
  cases hread : (m.slice part a 2).result with
  | ok bytes =>
      obtain ⟨-, -, hlength, hheld⟩ := slice_eq_ok_iff.1 hread
      obtain ⟨low, high, rfl⟩ := List.length_eq_two.1 hlength
      obtain ⟨hlow, hhigh⟩ := holds_cons.1 hheld
      refine wordAt_eq_ok_iff.2 ⟨low, high, hlow, (holds_cons.1 hhigh).1, ?_⟩
      rw [littleEndian, List.map_cons, List.map_cons, List.map_nil, Nat.ofDigits_cons,
        Nat.ofDigits_singleton]
  | error f =>
      obtain ⟨hsize, rfl⟩ := (slice_eq_error_iff hlimit).1 hread
      exact wordAt_eq_error_iff.2 ⟨hsize, rfl⟩

/-- A run whose end is no address fails at its start. -/
theorem result_slice_of_limit_le (hlimit : addressLimit ≤ a + len) :
    (m.slice part a len).result = .error (.malformed part a) := by
  simp only [slice, Nat.not_lt_of_le hlimit, if_false]

/-! ## The three reads together -/

/-- How the reads of a place of a snapshot agree. -/
structure ReadsAgree (m : Snapshot) (part : Section) (a len : Nat) : Prop where
  /-- A run whose end is no address is refused at its start. -/
  overflows : addressLimit ≤ a + len → (m.slice part a len).result = .error (.malformed part a)
  /-- Any other run is read exactly when it ends inside the snapshot. -/
  succeeds : a + len < addressLimit →
    ((∃ bytes, (m.slice part a len).result = .ok bytes) ↔ a + len ≤ m.size)
  /-- It is then the bytes from its start on, as many as were asked for. -/
  value : ∀ bytes, (m.slice part a len).result = .ok bytes →
    bytes.length = len ∧ ∀ i, i < len → m.get? (a + i) = bytes[i]?
  /-- Otherwise its first byte that is missing is reported. -/
  fails : a + len < addressLimit → m.size < a + len →
    (m.slice part a len).result = .error (.malformed part (max a m.size))
  /-- Reading its bytes one after another comes to the same. -/
  stepwise : 0 < len → a + len < addressLimit →
    (m.slice part a len).result = (m.bytewise part a len).result
  /-- A word is the number that two bytes spell, and fails as they do. -/
  word : a + 2 < addressLimit →
    (m.word part a).result = (m.slice part a 2).result.map littleEndian
  /-- Only the empty run behind the end is refused with no byte missing. -/
  empty : m.size < addressLimit → a < addressLimit →
    ((∃ f, (m.slice part a len).result = .error f) ∧
        (∃ bytes, (m.bytewise part a len).result = .ok bytes) ↔
      len = 0 ∧ m.size < a)

/-- At every place of a snapshot the three reads agree. -/
theorem reads_agree (m : Snapshot) (part : Section) (a len : Nat) : ReadsAgree m part a len where
  overflows := result_slice_of_limit_le
  succeeds := by
    intro hlimit
    refine ⟨?_, ?_⟩
    · intro h
      obtain ⟨bytes, hread⟩ := h
      exact (slice_eq_ok_iff.1 hread).2.1
    · intro hsize
      exact ⟨_, slice_eq_ok_iff.2 ⟨hlimit, hsize, holds_extract hsize⟩⟩
  value := by
    intro bytes hread
    obtain ⟨-, -, hlength, hheld⟩ := slice_eq_ok_iff.1 hread
    exact ⟨hlength, hlength ▸ hheld⟩
  fails := fun hlimit hsize => (slice_eq_error_iff hlimit).2 ⟨hsize, rfl⟩
  stepwise := result_slice_eq_bytewise
  word := result_word_eq_slice
  empty := by
    intro hsize ha
    refine ⟨?_, ?_⟩
    · intro h
      obtain ⟨⟨f, hslice⟩, bytes, hread⟩ := h
      obtain ⟨hlength, hheld⟩ := bytewise_eq_ok_iff.1 hread
      by_cases hlen : len = 0
      · subst hlen
        obtain ⟨houtside, -⟩ := (slice_eq_error_iff ha).1 hslice
        exact ⟨rfl, houtside⟩
      · -- All bytes are there, so that the end of the run is an address and inside.
        have hinside : a + bytes.length ≤ m.size :=
          hheld.le_size (List.length_pos_iff.1 (by omega))
        rw [result_slice_eq_bytewise (by omega) (by omega), hread] at hslice
        cases hslice
    · intro h
      obtain ⟨rfl, houtside⟩ := h
      have refused : (m.slice part a 0).result = .error (.malformed part (max a m.size)) :=
        (slice_eq_error_iff ha).2 ⟨houtside, rfl⟩
      exact ⟨⟨_, refused⟩, [], bytewise_eq_ok_iff.2 ⟨rfl, holds_nil⟩⟩

/-- The empty run may start right behind the end, and not further on. -/
example : ((⟨#[7]⟩ : Snapshot).slice .objects 1 0).result = .ok [] ∧
    ((⟨#[7]⟩ : Snapshot).slice .objects 2 0).result = .error (.malformed .objects 2) :=
  ⟨rfl, rfl⟩

end Snapshot
end Adventure
