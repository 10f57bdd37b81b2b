/-
# The formats of the exits and of the vocabulary

The exits of a location are written as pairs behind each other and the byte
255; a word is four inverted characters and its token, and the vocabulary is
over at a token 0, whatever stands in front of it.  Both are read back
wherever they are written, as the maps of their pairs.
-/
import Adventure.Exits
import Adventure.Proofs.Held
import Adventure.Vocabulary

namespace Adventure

variable {m : Snapshot} {p : Nat}

/-! ## Exits -/

namespace Exits

theorem pairAt_eq_record_iff {e : UInt8 × UInt8} {k : Nat} :
    (pairAt m p).result = .ok (.record e k) ↔
      e.1 ≠ endOfExits ∧ k = 1 ∧ m.Holds p [e.1, e.2] := by
  simp only [pairAt, Reading.bind_eq_ok_iff, Snapshot.byteAt_eq_ok_iff]
  constructor
  · rintro ⟨direction, h0, h⟩
    split at h
    · cases h
    · rename_i hne
      obtain ⟨destination, h1, h⟩ := Reading.bind_eq_ok_iff.1 h
      rw [Snapshot.byteAt_eq_ok_iff] at h1
      cases h
      exact ⟨hne, rfl, by simpa using ⟨h0, h1⟩⟩
  · rintro ⟨hne, rfl, h⟩
    obtain ⟨h0, h1⟩ : m.get? p = some e.1 ∧ m.get? (p + 1) = some e.2 := by simpa using h
    refine ⟨e.1, h0, ?_⟩
    rw [if_neg hne]
    exact Reading.bind_eq_ok_iff.2 ⟨e.2, Snapshot.byteAt_eq_ok_iff.2 h1, rfl⟩

theorem pairAt_eq_stop_iff {w : Nat} :
    (pairAt m p).result = .ok (.stop w) ↔ w = 1 ∧ m.get? p = some endOfExits := by
  refine Snapshot.closed_eq_stop_iff fun direction => Reading.bind_ne_ok fun destination => ?_
  intro h
  cases h

/-- The exits of a location as stored. -/
def bytes (pairs : List (UInt8 × UInt8)) : List UInt8 :=
  pairs.flatMap (fun e => [e.1, e.2]) ++ [endOfExits]

theorem read_eq_ok_iff {index next : Nat} {exits : Exits} :
    (read m index p).result = .ok (exits, next) ↔
      ∃ l q, (pairs m).Passes p l q ∧ m.get? q = some endOfExits ∧ next = q + 1 ∧
        exits = OrderedMap.ofList l := by
  have walk : ∀ {l : List (UInt8 × UInt8)} {next : Nat},
      ((pairs m).walk p).result = .ok (l, next) ↔
        ∃ q, (pairs m).Passes p l q ∧ m.get? q = some endOfExits ∧ next = q + 1 :=
    Snapshot.walk_closed_iff (k := 0) fun _ _ => pairAt_eq_stop_iff
  constructor
  · intro h
    obtain ⟨⟨l, next'⟩, hw, h⟩ := Reading.bind_eq_ok_iff.1 h
    obtain ⟨q, hpass, hend, rfl⟩ := walk.1 hw
    cases h
    exact ⟨l, q, hpass, hend, rfl, rfl⟩
  · rintro ⟨l, q, hpass, hend, rfl, rfl⟩
    exact Reading.bind_eq_ok_iff.2 ⟨_, walk.2 ⟨q, hpass, hend, rfl⟩, rfl⟩

theorem readAll_eq_ok_iff {count : Nat} {rows : List Exits} :
    (readAll m p count).result = .ok rows ↔
      rows.length = count ∧ ∃ next, Packs (read m) 0 p rows next := by
  constructor
  · intro h
    obtain ⟨⟨rows', next⟩, hp, h⟩ := Reading.bind_eq_ok_iff.1 h
    cases h
    obtain ⟨hlen, hpacks⟩ := packed_eq_ok_iff.1 hp
    exact ⟨hlen, next, hpacks⟩
  · rintro ⟨hlen, next, hpacks⟩
    exact Reading.bind_eq_ok_iff.2 ⟨_, packed_eq_ok_iff.2 ⟨hlen, hpacks⟩, rfl⟩

/-- A pair that is read is inside the snapshot. -/
theorem pairAt_inside {e : UInt8 × UInt8} {k : Nat}
    (h : (pairAt m p).result = .ok (.record e k)) : p + (k + 1) ≤ m.size := by
  obtain ⟨-, rfl, hheld⟩ := pairAt_eq_record_iff.1 h
  exact hheld.le_size (by simp)

/-- Where a pair cannot be read, its first missing byte is to blame. -/
theorem pairAt_fault {f : Fault} (h : (pairAt m p).result = .error f) :
    f = .malformed .connections (max p m.size) := by
  rcases Reading.bind_eq_error_iff.1 h with h | ⟨direction, h0, h⟩
  · exact Snapshot.byteAt_fault (by omega) h
  have r0 := Snapshot.lt_size_of_get? (Snapshot.byteAt_eq_ok_iff.1 h0)
  split at h
  · cases h
  exact Snapshot.byteAt_fault (by omega) (Reading.error_of_bind (fun _ => ⟨_, rfl⟩) h)

/-- Pairs are passed exactly where they are written. -/
theorem pairs_passes_iff {l : List (UInt8 × UInt8)} {q : Nat} :
    (pairs m).Passes p l q ↔
      (∀ e ∈ l, e.1 ≠ endOfExits) ∧ m.Holds p (l.flatMap fun e => [e.1, e.2]) ∧
        q = p + (l.flatMap fun e => [e.1, e.2]).length := by
  refine Snapshot.passes_iff_holds (by simp) fun p e k => ?_
  refine pairAt_eq_record_iff.trans (and_congr_right fun _ => and_congr_left fun _ => ?_)
  exact (Nat.add_right_cancel_iff (n := 1)).symm

/-- The exits of a location are read exactly where they are written. -/
theorem read_eq_ok_iff_holds {index next : Nat} {exits : Exits} :
    (read m index p).result = .ok (exits, next) ↔
      ∃ row, (∀ e ∈ row, e.1 ≠ endOfExits) ∧ m.Holds p (bytes row) ∧
        next = p + (bytes row).length ∧ exits = OrderedMap.ofList row := by
  simp only [read_eq_ok_iff, pairs_passes_iff, bytes, Snapshot.holds_append, Snapshot.holds_cons,
    Snapshot.holds_nil, and_true, List.length_append, List.length_singleton]
  constructor
  · rintro ⟨row, q, ⟨hrow, hheld, rfl⟩, hend, rfl, rfl⟩
    exact ⟨row, hrow, ⟨hheld, hend⟩, Nat.add_assoc _ _ _, rfl⟩
  · rintro ⟨row, hrow, ⟨hheld, hend⟩, rfl, rfl⟩
    exact ⟨row, _, ⟨hrow, hheld, rfl⟩, hend, (Nat.add_assoc _ _ _).symm, rfl⟩

/-- The exits of several locations are packed exactly where they are written. -/
theorem packs_iff_holds {index next : Nat} {maps : List Exits} :
    Packs (read m) index p maps next ↔
      ∃ rows : List (List (UInt8 × UInt8)), (∀ row ∈ rows, ∀ e ∈ row, e.1 ≠ endOfExits) ∧
        m.Holds p (rows.flatMap bytes) ∧ next = p + (rows.flatMap bytes).length ∧
        maps = rows.map OrderedMap.ofList :=
  Snapshot.packs_iff_holds bytes OrderedMap.ofList fun _ _ _ _ => read_eq_ok_iff_holds

theorem readAll_eq_ok_iff_holds {count : Nat} {maps : List Exits} :
    (readAll m p count).result = .ok maps ↔
      ∃ rows : List (List (UInt8 × UInt8)), rows.length = count ∧
        (∀ row ∈ rows, ∀ e ∈ row, e.1 ≠ endOfExits) ∧ m.Holds p (rows.flatMap bytes) ∧
        maps = rows.map OrderedMap.ofList := by
  simp only [readAll_eq_ok_iff, packs_iff_holds]
  constructor
  · rintro ⟨hlen, _, rows, hrows, hheld, -, rfl⟩
    exact ⟨rows, by simpa using hlen, hrows, hheld, rfl⟩
  · rintro ⟨rows, hlen, hrows, hheld, rfl⟩
    exact ⟨by simpa using hlen, _, rows, hrows, hheld, rfl, rfl⟩

end Exits

/-! ## Words -/

namespace Vocabulary

/-- A word as stored: four bytes, and a token that does not end the table. -/
structure Stored where
  word : List UInt8
  token : UInt8
  length_word : word.length = wordLength
  token_ne : token ≠ 0

/-- The bytes of a stored word. -/
def Stored.bytes (s : Stored) : List UInt8 :=
  s.word ++ [s.token]

theorem wordAt_eq_record_iff {e : String × UInt8} {k : Nat} :
    (wordAt m p).result = .ok (.record e k) ↔
      p + wordLength < addressLimit ∧ k = wordLength ∧
        ∃ s : Stored, e = (spell s.word, s.token) ∧ m.Holds p s.bytes := by
  simp only [wordAt, Reading.bind_eq_ok_iff, Snapshot.byteAt_eq_ok_iff]
  constructor
  · rintro ⟨token, h0, h⟩
    split at h
    · cases h
    · rename_i hne
      obtain ⟨word, h1, h⟩ := Reading.bind_eq_ok_iff.1 h
      obtain ⟨hlimit, -, hlen, hheld⟩ := Snapshot.slice_eq_ok_iff.1 h1
      cases h
      refine ⟨hlimit, rfl, ⟨word, token, hlen, hne⟩, rfl, ?_⟩
      exact Snapshot.holds_append.2 ⟨hheld, by simpa [hlen] using h0⟩
  · rintro ⟨hlimit, rfl, ⟨word, token, hlen, hne⟩, rfl, h⟩
    obtain ⟨hheld, htoken⟩ := Snapshot.holds_append.1 h
    have h0 : m.get? (p + wordLength) = some token := by simpa [hlen] using htoken
    have hsize := Snapshot.lt_size_of_get? h0
    refine ⟨token, h0, ?_⟩
    rw [if_neg hne]
    exact Reading.bind_eq_ok_iff.2
      ⟨word, Snapshot.slice_eq_ok_iff.2 ⟨hlimit, Nat.le_of_lt hsize, hlen, hheld⟩, rfl⟩

theorem wordAt_eq_stop_iff {w : Nat} :
    (wordAt m p).result = .ok (.stop w) ↔
      w = wordLength + 1 ∧ m.get? (p + wordLength) = some 0 := by
  refine Snapshot.closed_eq_stop_iff fun token => Reading.bind_ne_ok fun stored => ?_
  intro h
  cases h

/-- A word cannot be read exactly when its token is missing; its characters
stand in front of that and cannot be. -/
theorem wordAt_eq_error_iff (hm : m.size < addressLimit) {f : Fault} :
    (wordAt m p).result = .error f ↔
      m.size ≤ p + wordLength ∧ f = .malformed .vocabulary (p + wordLength) := by
  constructor
  · intro h
    rcases Reading.bind_eq_error_iff.1 h with h | ⟨token, htoken, h⟩
    · exact Snapshot.byteAt_eq_error_iff.1 h
    have hinside : p + wordLength < m.size :=
      Snapshot.lt_size_of_get? (Snapshot.byteAt_eq_ok_iff.1 htoken)
    split at h
    · cases h
    have hslice := Reading.error_of_bind (fun _ => ⟨_, rfl⟩) h
    obtain ⟨hsize, -⟩ := (Snapshot.slice_eq_error_iff (Nat.lt_trans hinside hm)).1 hslice
    exact absurd hsize (Nat.not_lt_of_lt hinside)
  · rintro ⟨hsize, rfl⟩
    exact Reading.bind_eq_error_iff.2 (.inl (Snapshot.byteAt_eq_error_iff.2 ⟨hsize, rfl⟩))

theorem read_eq_ok_iff {v : Vocabulary} :
    (read m p).result = .ok v ↔
      ∃ l q, (words m).Passes p l q ∧ m.get? (q + wordLength) = some 0 ∧
        v = OrderedMap.ofList l := by
  have walk : ∀ {l : List (String × UInt8)} {next : Nat},
      ((words m).walk p).result = .ok (l, next) ↔
        ∃ q, (words m).Passes p l q ∧ m.get? (q + wordLength) = some 0 ∧
          next = q + (wordLength + 1) :=
    Snapshot.walk_closed_iff fun _ _ => wordAt_eq_stop_iff
  constructor
  · intro h
    obtain ⟨⟨l, next⟩, hw, h⟩ := Reading.bind_eq_ok_iff.1 h
    obtain ⟨q, hpass, hend, -⟩ := walk.1 hw
    cases h
    exact ⟨l, q, hpass, hend, rfl⟩
  · rintro ⟨l, q, hpass, hend, rfl⟩
    exact Reading.bind_eq_ok_iff.2 ⟨_, walk.2 ⟨q, hpass, hend, rfl⟩, rfl⟩

/-- A vocabulary is read back where it is written; only the token of the
record that ends it matters. -/
theorem read_of_holds {l : List Stored} (hsize : m.size < addressLimit)
    (h : m.Holds p (l.flatMap Stored.bytes))
    (hend : m.get? (p + (l.flatMap Stored.bytes).length + wordLength) = some 0) :
    (read m p).result =
      .ok (OrderedMap.ofList (l.map fun s => (spell s.word, s.token))) := by
  have step : ∀ (p : Nat) (s : Stored), True → m.Holds p s.bytes →
      ∃ k, k + 1 = s.bytes.length ∧
        ((words m).step p).result = .ok (.record (spell s.word, s.token) k) := by
    intro p s _ hb
    have hlen : s.bytes.length = wordLength + 1 := by simp [Stored.bytes, s.length_word]
    have hle := hb.le_size (by simp [Stored.bytes])
    refine ⟨wordLength, hlen.symm, wordAt_eq_record_iff.2 ⟨?_, rfl, s, rfl, hb⟩⟩
    omega
  have passes := Snapshot.passes_of_holds Stored.bytes _ step l p (fun _ _ => trivial) h
  exact read_eq_ok_iff.2 ⟨_, _, passes, hend, rfl⟩

end Vocabulary
end Adventure
