/-
# The rows of the connection table

The connection table has a row for each location: its pairs of a direction
and a destination, and behind them the byte 255.  `RowsSpan m p rows e` says
that these rows fill the snapshot from `p` to `e`, and it speaks of nothing
but bytes.  Only in the place of a direction does 255 close a row; as a
destination it is a location like any other.

The main statement is `readAll_rows`: the exits are read exactly where as
many rows stand as there are locations, and each map is that of its row.  The
same bytes are rows in one way only, and where they are not, the fault is at
the first byte that is missing.
-/
import Adventure.Proofs.OrderedMap
import Adventure.Proofs.Tables
import Mathlib.Order.Bounds.Basic

namespace Adventure
namespace Exits

/-- The bytes of the snapshot from `p` to `e` are these rows, each of them closed. -/
structure RowsSpan (m : Snapshot) (p : Nat) (rows : List (List (UInt8 × UInt8))) (e : Nat) :
    Prop where
  directions : ∀ row ∈ rows, ∀ pair ∈ row, pair.1 ≠ endOfExits
  held : m.Holds p (rows.flatMap bytes)
  extent : e = p + (rows.flatMap bytes).length

/-- Where the row number `i` begins. -/
def rowPlace (p : Nat) (rows : List (List (UInt8 × UInt8))) (i : Nat) : Nat :=
  p + ((rows.take i).flatMap bytes).length

variable {m : Snapshot} {p e e' : Nat} {row row' : List (UInt8 × UInt8)}
  {rows rows' : List (List (UInt8 × UInt8))} {f : Fault}

/-! ## One row -/

theorem bytes_cons (pair : UInt8 × UInt8) (row : List (UInt8 × UInt8)) :
    bytes (pair :: row) = pair.1 :: pair.2 :: bytes row := rfl

/-- The pairs of a row stand two bytes apart, and behind them the byte that closes it. -/
theorem get?_of_holds (h : m.Holds p (bytes row)) :
    (∀ k pair, row[k]? = some pair →
        m.get? (p + 2 * k) = some pair.1 ∧ m.get? (p + 2 * k + 1) = some pair.2) ∧
      m.get? (p + 2 * row.length) = some endOfExits := by
  induction row generalizing p with
  | nil => exact ⟨by simp, (Snapshot.holds_cons.1 h).1⟩
  | cons first row ih =>
      obtain ⟨hdirection, h⟩ := Snapshot.holds_cons.1 (bytes_cons first row ▸ h)
      obtain ⟨hdestination, h⟩ := Snapshot.holds_cons.1 h
      obtain ⟨hpairs, hend⟩ := ih h
      have behind : ∀ k, p + 2 * (k + 1) = p + 1 + 1 + 2 * k := fun k => by omega
      refine ⟨fun k pair hk => ?_, ?_⟩
      · cases k with
        | zero =>
            cases hk
            exact ⟨hdirection, hdestination⟩
        | succ k =>
            rw [behind]
            exact hpairs k pair hk
      · rw [List.length_cons, behind]
        exact hend

/-- A row is closed by the first 255 that stands in the place of a direction. -/
theorem isLeast_of_holds (hrow : ∀ pair ∈ row, pair.1 ≠ endOfExits) (h : m.Holds p (bytes row)) :
    IsLeast {k | m.get? (p + 2 * k) = some endOfExits} row.length := by
  obtain ⟨hpairs, hend⟩ := get?_of_holds h
  refine ⟨hend, fun k hk => Nat.le_of_not_lt fun hlt => ?_⟩
  have hdirection := (hpairs k _ (List.getElem?_eq_getElem hlt)).1
  rw [show m.get? (p + 2 * k) = some endOfExits from hk] at hdirection
  exact hrow _ (List.getElem_mem hlt) (Option.some.inj hdirection).symm

/-- No two rows stand at one place. -/
theorem row_unique (hrow : ∀ pair ∈ row, pair.1 ≠ endOfExits) (h : m.Holds p (bytes row))
    (hrow' : ∀ pair ∈ row', pair.1 ≠ endOfExits) (h' : m.Holds p (bytes row')) : row = row' := by
  have hlen : row.length = row'.length :=
    (isLeast_of_holds hrow h).unique (isLeast_of_holds hrow' h')
  refine List.ext_getElem hlen fun k hk hk' => ?_
  obtain ⟨hdirection, hdestination⟩ := (get?_of_holds h).1 k _ (List.getElem?_eq_getElem hk)
  obtain ⟨hdirection', hdestination'⟩ := (get?_of_holds h').1 k _ (List.getElem?_eq_getElem hk')
  rw [hdirection] at hdirection'
  rw [hdestination] at hdestination'
  exact Prod.ext (Option.some.inj hdirection') (Option.some.inj hdestination')

/-! ## Several rows -/

/-- The first row, and the rows behind it. -/
theorem rowsSpan_cons_iff :
    RowsSpan m p (row :: rows) e ↔
      (∀ pair ∈ row, pair.1 ≠ endOfExits) ∧ m.Holds p (bytes row) ∧
        RowsSpan m (p + (bytes row).length) rows e := by
  constructor
  · rintro ⟨hdirections, hheld, rfl⟩
    obtain ⟨hrow, hrows⟩ := List.forall_mem_cons.1 hdirections
    rw [List.flatMap_cons, Snapshot.holds_append] at hheld
    refine ⟨hrow, hheld.1, hrows, hheld.2, ?_⟩
    rw [List.flatMap_cons, List.length_append, Nat.add_assoc]
  · rintro ⟨hrow, hheld, hrows, hrest, rfl⟩
    refine ⟨List.forall_mem_cons.2 ⟨hrow, hrows⟩, ?_, ?_⟩
    · rw [List.flatMap_cons, Snapshot.holds_append]
      exact ⟨hheld, hrest⟩
    · rw [List.flatMap_cons, List.length_append, Nat.add_assoc]

/-- Rows end inside the snapshot. -/
theorem RowsSpan.inside (h : RowsSpan m p rows e) (hne : rows ≠ []) : e ≤ m.size := by
  rw [h.extent]
  refine h.held.le_size ?_
  cases rows with
  | nil => exact absurd rfl hne
  | cons row rows => simp [bytes]

/-- No two tables of as many rows stand at one place. -/
theorem RowsSpan.unique (h : RowsSpan m p rows e) (h' : RowsSpan m p rows' e')
    (hlen : rows.length = rows'.length) : rows = rows' ∧ e = e' := by
  induction rows generalizing p rows' with
  | nil =>
      cases List.length_eq_zero_iff.1 hlen.symm
      exact ⟨rfl, h.extent.trans h'.extent.symm⟩
  | cons row rows ih =>
      cases rows' with
      | nil => cases hlen
      | cons row' rows' =>
          obtain ⟨hrow, hheld, hrest⟩ := rowsSpan_cons_iff.1 h
          obtain ⟨hrow', hheld', hrest'⟩ := rowsSpan_cons_iff.1 h'
          obtain rfl : row = row' := row_unique hrow hheld hrow' hheld'
          obtain ⟨rfl, rfl⟩ := ih hrest hrest' (Nat.succ.inj hlen)
          exact ⟨rfl, rfl⟩

/-- Each row is closed by the first 255 in the place of a direction. -/
theorem RowsSpan.isLeast (h : RowsSpan m p rows e) {i : Nat} (hi : rows[i]? = some row) :
    IsLeast {k | m.get? (rowPlace p rows i + 2 * k) = some endOfExits} row.length := by
  induction rows generalizing p i with
  | nil => simp at hi
  | cons first rows ih =>
      obtain ⟨hfirst, hheld, hrest⟩ := rowsSpan_cons_iff.1 h
      cases i with
      | zero =>
          cases hi
          exact isLeast_of_holds hfirst hheld
      | succ i =>
          have behind : rowPlace p (first :: rows) (i + 1) =
              rowPlace (p + (bytes first).length) rows i := by
            simp [rowPlace, Nat.add_assoc]
          rw [behind]
          exact ih hrest hi

/-! ## Reading -/

/-- The exits are read exactly where their rows stand, each map being that of its row. -/
theorem readAll_eq_ok_iff_rows {count : Nat} {maps : List Exits} :
    (readAll m p count).result = .ok maps ↔
      ∃ rows e, rows.length = count ∧ RowsSpan m p rows e ∧
        List.Forall₂ OrderedMap.Collects maps rows := by
  simp only [readAll_eq_ok_iff_holds, OrderedMap.forall₂_collects_iff]
  constructor
  · rintro ⟨rows, hlen, hrows, hheld, hmaps⟩
    exact ⟨rows, _, hlen, ⟨hrows, hheld, rfl⟩, hmaps⟩
  · rintro ⟨rows, e, hlen, ⟨hrows, hheld, -⟩, hmaps⟩
    exact ⟨rows, hlen, hrows, hheld, hmaps⟩

theorem exists_readAll_iff {count : Nat} :
    (∃ maps, (readAll m p count).result = .ok maps) ↔
      ∃ rows e, rows.length = count ∧ RowsSpan m p rows e := by
  constructor
  · rintro ⟨maps, h⟩
    obtain ⟨rows, e, hlen, hspan, -⟩ := readAll_eq_ok_iff_rows.1 h
    exact ⟨rows, e, hlen, hspan⟩
  · rintro ⟨rows, e, hlen, hspan⟩
    exact ⟨_, readAll_eq_ok_iff_rows.2
      ⟨rows, e, hlen, hspan, OrderedMap.forall₂_collects_iff.2 rfl⟩⟩

/-- Where the exits cannot be read, the first missing byte is to blame. -/
theorem readAll_fault {count : Nat} (h : (readAll m p count).result = .error f) :
    f = .malformed .connections (max p m.size) := by
  have next : ∀ index p exits q, (read m index p).result = .ok (exits, q) →
      p < q ∧ q ≤ m.size := by
    intro index p exits q h
    obtain ⟨row, -, hheld, rfl, -⟩ := read_eq_ok_iff_holds.1 h
    have hpos : 0 < (bytes row).length := by simp [bytes]
    exact ⟨Nat.lt_add_of_pos_right hpos, hheld.le_size (List.length_pos_iff.1 hpos)⟩
  have fault : ∀ index p f, (read m index p).result = .error f →
      f = .malformed .connections (max p m.size) := by
    intro index p f h
    exact Snapshot.walk_fault (r := pairs m) (fun _ _ _ h => pairAt_inside h)
      (fun _ _ h => pairAt_fault h) (Reading.error_of_bind (fun _ => ⟨_, rfl⟩) h)
  exact Snapshot.packed_fault next fault (Reading.error_of_bind (fun _ => ⟨_, rfl⟩) h)

/-! ## Reading by the rows -/

/-- What reading exits at `p` comes to, told by the rows that stand there. -/
structure ReadsByRows (m : Snapshot) (p : Nat) : Prop where
  /-- The exits of several locations are read where as many rows stand. -/
  succeeds : ∀ count, (∃ maps, (readAll m p count).result = .ok maps) ↔
    ∃ rows e, rows.length = count ∧ RowsSpan m p rows e
  /-- There is a map for each row.  It has the directions of its row, in the
  order in which they are met first, and each with its last destination. -/
  maps : ∀ count maps, (readAll m p count).result = .ok maps ↔
    ∃ rows e, rows.length = count ∧ RowsSpan m p rows e ∧
      List.Forall₂ OrderedMap.Collects maps rows
  /-- Rows lie inside the snapshot. -/
  inside : ∀ rows e, RowsSpan m p rows e → rows ≠ [] → e ≤ m.size
  /-- Bytes are rows in one way only. -/
  unique : ∀ rows e rows' e', RowsSpan m p rows e → RowsSpan m p rows' e' →
    rows.length = rows'.length → rows = rows' ∧ e = e'
  /-- A row is closed by the first 255 in the place of a direction, whatever
  the destinations in front of that are. -/
  closed : ∀ rows e, RowsSpan m p rows e → ∀ i row, rows[i]? = some row →
    IsLeast {k | m.get? (rowPlace p rows i + 2 * k) = some endOfExits} row.length
  /-- Where the rows do not stand, the first missing byte is at fault. -/
  fault : ∀ count f, (readAll m p count).result = .error f ↔
    f = .malformed .connections (max p m.size) ∧
      ∀ rows e, rows.length = count → ¬ RowsSpan m p rows e
  /-- Nothing is read for no locations. -/
  none : readAll m p 0 = ⟨.ok [], [.connectionsRead 0 p], 0⟩

/-- Exits are read by their rows, from every place of every snapshot. -/
theorem readAll_rows (m : Snapshot) (p : Nat) : ReadsByRows m p := by
  refine ⟨?succeeds, ?maps, ?inside, ?unique, ?closed, ?fault, ?none⟩
  case succeeds => exact fun count => exists_readAll_iff
  case maps => exact fun count maps => readAll_eq_ok_iff_rows
  case inside => exact fun rows e h hne => h.inside hne
  case unique => exact fun rows e rows' e' h h' hlen => h.unique h' hlen
  case closed => exact fun rows e h i row hi => h.isLeast hi
  case fault =>
    intro count f
    constructor
    · intro h
      refine ⟨readAll_fault h, fun rows e hlen hspan => ?_⟩
      obtain ⟨maps, hmaps⟩ := exists_readAll_iff.2 ⟨rows, e, hlen, hspan⟩
      rw [hmaps] at h
      cases h
    · rintro ⟨rfl, hnone⟩
      cases hr : (readAll m p count).result with
      | error g => rw [readAll_fault hr]
      | ok maps =>
          obtain ⟨rows, e, hlen, hspan⟩ := exists_readAll_iff.1 ⟨maps, hr⟩
          exact absurd hspan (hnone rows e hlen)
  case none => rfl

end Exits
end Adventure
