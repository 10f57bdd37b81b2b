/-
# How far outside a fault lies

A table is read from an address that fits a word, and from then on from
cursors that lie behind bytes already read.  `Snapshot.Near m p` is what both
kinds of cursors have in common.  A fault of a reading at such a cursor is
`Beyond`: its byte is missing, and it is at most four places behind the end
of the snapshot or behind the last address that fits a word.  Four is the
distance from a vocabulary record to its token.

`Records.Bounded` says it of one step of a walk, and from it the same follows
for the whole walk; every table of a database is bounded.
-/
import Adventure.Database.Decode
import Adventure.Proofs.Header
import Adventure.Proofs.Rules.Table
import Adventure.Proofs.Tables
import Adventure.Proofs.Text.Format

namespace Adventure

variable {m : Snapshot} {part : Section} {p : Nat} {f : Fault}

namespace Snapshot

/-- A cursor inside the snapshot, just behind it, or at an address that fits a word. -/
def Near (m : Snapshot) (p : Nat) : Prop :=
  p ≤ max m.size 65535

/-- A fault of `part` at a missing byte close to the snapshot or to the addresses. -/
def Beyond (m : Snapshot) (part : Section) (f : Fault) : Prop :=
  ∃ offset, f = .malformed part offset ∧ m.size ≤ offset ∧ offset ≤ max (m.size + 4) 65539

theorem near_of_le (h : p ≤ m.size) : m.Near p :=
  Nat.le_trans h (Nat.le_max_left _ _)

theorem near_of_lt (h : p < 65536) : m.Near p :=
  Nat.le_trans (Nat.le_of_lt_succ h) (Nat.le_max_right _ _)

/-- What is at most four places behind a near cursor, and missing, is beyond. -/
theorem Near.beyond {offset : Nat} (hp : m.Near p) (hsize : m.size ≤ offset)
    (hoffset : offset ≤ max m.size p + 4) : m.Beyond part (.malformed part offset) := by
  have hle : p ≤ max m.size 65535 := hp
  exact ⟨offset, rfl, hsize, by omega⟩

theorem Near.beyond_of_byteAt {k : Nat} (hp : m.Near p) (hk : k ≤ 4)
    (h : (m.byteAt part p k).result = .error f) : m.Beyond part f := by
  obtain ⟨hsize, rfl⟩ := byteAt_eq_error_iff.1 h
  exact hp.beyond hsize (by omega)

theorem Near.beyond_of_wordAt {k : Nat} (hp : m.Near p) (hk : k ≤ 4)
    (h : (m.wordAt part p k).result = .error f) : m.Beyond part f := by
  obtain ⟨-, rfl⟩ := wordAt_eq_error_iff.1 h
  exact hp.beyond (Nat.le_max_right _ _) (by omega)

theorem Near.beyond_of_slice {len : Nat} (hp : m.Near p) (hlimit : p + len < addressLimit)
    (h : (m.slice part p len).result = .error f) : m.Beyond part f := by
  obtain ⟨-, rfl⟩ := (slice_eq_error_iff hlimit).1 h
  exact hp.beyond (Nat.le_max_right _ _) (by omega)

end Snapshot

open Snapshot (Near Beyond)

/-! ## The header -/

namespace Header

variable {anchor : Nat}

/-- The words that name a cell, and the sections that their cells lead to. -/
def cells : List (Nat × Section) :=
  [(2, .objects), (3, .locations), (4, .messages), (5, .connections)]

/-- The cell of `part` can be named, but cannot be read: that is the fault `f`. -/
def Dangling (m : Snapshot) (anchor : Nat) (part : Section) (f : Fault) : Prop :=
  ∃ n cell, (n, part) ∈ cells ∧ (field m (anchor + distance) n).result = .ok cell ∧
    (m.word part cell).result = .error f

theorem field_inside {base n w : Nat} (h : (field m base n).result = .ok w) :
    base + (4 + 2 * (n + 1)) ≤ m.size := by
  obtain ⟨_, _, -, hhigh, -⟩ := Snapshot.wordAt_eq_ok_iff.1 h
  have := Snapshot.lt_size_of_get? hhigh
  omega

/-- A word right behind what has been read fails right behind the snapshot. -/
theorem field_beyond {base n : Nat} (hread : base + (4 + 2 * n) ≤ m.size)
    (h : (field m base n).result = .error f) : m.Beyond .header f := by
  obtain ⟨-, rfl⟩ := Snapshot.wordAt_eq_error_iff.1 h
  exact (Snapshot.near_of_le hread).beyond (Nat.le_max_right _ _) (by omega)

theorem throughCell_inside {base n w : Nat} {part : Section}
    (h : (throughCell m base n part).result = .ok w) : base + (4 + 2 * (n + 1)) ≤ m.size := by
  obtain ⟨cell, hcell, -⟩ := Reading.bind_eq_ok_iff.1 h
  exact field_inside hcell

theorem throughCell_beyond {n : Nat} {part : Section} (hn : (n, part) ∈ cells)
    (hread : anchor + distance + (4 + 2 * n) ≤ m.size)
    (h : (throughCell m (anchor + distance) n part).result = .error f) :
    ∃ named, m.Beyond named f ∧ (named = .header ∨ Dangling m anchor named f) := by
  rcases Reading.bind_eq_error_iff.1 h with h | ⟨cell, hcell, h⟩
  · exact ⟨.header, field_beyond hread h, .inl rfl⟩
  · have hnear : m.Near cell := Snapshot.near_of_lt (Snapshot.lt_of_wordAt_eq_ok hcell)
    exact ⟨part, hnear.beyond_of_wordAt (by omega) h, .inr ⟨n, cell, hn, hcell, h⟩⟩

/-- A header that cannot be read is cut off, or one of its cells is missing. -/
theorem resolve_beyond (hanchor : Signature.Anchored m anchor)
    (h : (resolve m anchor).result = .error f) :
    ∃ named, m.Beyond named f ∧ (named = .header ∨ Dangling m anchor named f) := by
  have hspan : anchor + 10 < m.size := hanchor.1
  have counts : ∀ {k : Nat}, k ≤ 4 → anchor + distance ≤ m.size →
      (m.byteAt .header (anchor + distance) k).result = .error f → m.Beyond .header f :=
    fun hk hread h => (Snapshot.near_of_le hread).beyond_of_byteAt hk h
  rcases Reading.bind_eq_error_iff.1 h with h | ⟨carried, h0, h⟩
  · obtain ⟨hsize, rfl⟩ := Snapshot.byteAt_eq_error_iff.1 h
    have hnear : m.Near (anchor + 10) := Snapshot.near_of_le (Nat.le_of_lt hspan)
    exact ⟨.header, hnear.beyond hsize (by simp only [distance]; omega), .inl rfl⟩
  have r0 : anchor + distance < m.size :=
    Snapshot.lt_size_of_get? (Snapshot.byteAt_eq_ok_iff.1 h0)
  have base := Nat.le_of_lt r0
  rcases Reading.bind_eq_error_iff.1 h with h | ⟨_, -, h⟩
  · exact ⟨.header, counts (by omega) base h, .inl rfl⟩
  rcases Reading.bind_eq_error_iff.1 h with h | ⟨_, -, h⟩
  · exact ⟨.header, counts (by omega) base h, .inl rfl⟩
  rcases Reading.bind_eq_error_iff.1 h with h | ⟨_, h3, h⟩
  · exact ⟨.header, counts (by omega) base h, .inl rfl⟩
  have r3 : anchor + distance + 3 < m.size :=
    Snapshot.lt_size_of_get? (Snapshot.byteAt_eq_ok_iff.1 h3)
  -- From here on each word stands right behind the one that was read before.
  rcases Reading.bind_eq_error_iff.1 h with h | ⟨_, h, h'⟩
  · exact ⟨.header, field_beyond r3 h, .inl rfl⟩
  have r := field_inside h
  rcases Reading.bind_eq_error_iff.1 h' with h | ⟨_, h, h'⟩
  · exact ⟨.header, field_beyond r h, .inl rfl⟩
  have r := field_inside h
  rcases Reading.bind_eq_error_iff.1 h' with h | ⟨_, h, h'⟩
  · exact throughCell_beyond (by decide) r h
  have r := throughCell_inside h
  rcases Reading.bind_eq_error_iff.1 h' with h | ⟨_, h, h'⟩
  · exact throughCell_beyond (by decide) r h
  have r := throughCell_inside h
  rcases Reading.bind_eq_error_iff.1 h' with h | ⟨_, h, h'⟩
  · exact throughCell_beyond (by decide) r h
  have r := throughCell_inside h
  rcases Reading.bind_eq_error_iff.1 h' with h | ⟨_, h, h'⟩
  · exact throughCell_beyond (by decide) r h
  have r := throughCell_inside h
  rcases Reading.bind_eq_error_iff.1 h' with h | ⟨_, h, h'⟩
  · exact ⟨.header, field_beyond r h, .inl rfl⟩
  have r := field_inside h
  rcases Reading.bind_eq_error_iff.1 h' with h | ⟨_, -, h'⟩
  · exact ⟨.header, field_beyond r h, .inl rfl⟩
  cases h'

/-- Every table of a header begins at an address that fits a word. -/
structure Short (h : Header) : Prop where
  responses : h.responses < 65536
  processes : h.processes < 65536
  objects : h.objects < 65536
  locations : h.locations < 65536
  messages : h.messages < 65536
  connections : h.connections < 65536
  vocabulary : h.vocabulary < 65536
  positions : h.positions < 65536

theorem throughCell_lt {base n w : Nat} {part : Section}
    (h : (throughCell m base n part).result = .ok w) : w < 65536 := by
  obtain ⟨cell, -, h⟩ := Reading.bind_eq_ok_iff.1 h
  exact Snapshot.lt_of_wordAt_eq_ok h

theorem short_of_resolve {h : Header} (hr : (resolve m anchor).result = .ok h) : h.Short := by
  have hr := resolve_eq_ok_iff.1 hr
  exact
    { responses := Snapshot.lt_of_wordAt_eq_ok hr.responses
      processes := Snapshot.lt_of_wordAt_eq_ok hr.processes
      objects := throughCell_lt hr.objects
      locations := throughCell_lt hr.locations
      messages := throughCell_lt hr.messages
      connections := throughCell_lt hr.connections
      vocabulary := Snapshot.lt_of_wordAt_eq_ok hr.vocabulary
      positions := Snapshot.lt_of_wordAt_eq_ok hr.positions }

end Header

/-! ## Bounded walks -/

/-- Records end inside the snapshot, and a step that fails at a near cursor fails close by. -/
structure Records.Bounded {α : Type} (m : Snapshot) (part : Section) (r : Records α) : Prop where
  record : ∀ p a k, (r.step p).result = .ok (.record a k) → p + (k + 1) ≤ m.size
  fault : ∀ p f, m.Near p → (r.step p).result = .error f → m.Beyond part f

namespace Records.Bounded

variable {α : Type} {r : Records α}

/-- The cursors of a walk stay near. -/
theorem near (h : r.Bounded m part) {q : Nat} {l : List α} (hp : m.Near p)
    (hpass : r.Passes p l q) : m.Near q := by
  refine hpass.cursor ?_ hp
  intro p a k _ hs
  exact Snapshot.near_of_le (h.record p a k hs)

theorem beyond (h : r.Bounded m part) (hp : m.Near p) (hw : (r.walk p).result = .error f) :
    m.Beyond part f := by
  obtain ⟨l, q, hpass, hs⟩ := Records.walk_eq_error_iff.1 hw
  exact h.fault q f (h.near hp hpass) hs

end Records.Bounded

/-- A packed table whose items lead from near cursors to near ones. -/
theorem packed_beyond {α : Type} {item : (index p : Nat) → Reading (α × Nat)}
    (next : ∀ index p a q, (item index p).result = .ok (a, q) → q ≤ m.size)
    (fault : ∀ index p f, m.Near p → (item index p).result = .error f → m.Beyond part f)
    {count : Nat} (hp : m.Near p) (h : (packed item count p).result = .error f) :
    m.Beyond part f := by
  obtain ⟨l, q, -, hpacks, hs⟩ := packed_eq_error_iff.1 h
  have near : ∀ {index p q : Nat} {l : List α}, Packs item index p l q → m.Near p → m.Near q := by
    intro index p q l hpacks
    induction hpacks with
    | nil => exact fun hp => hp
    | cons ha _ ih => exact fun _ => ih (Snapshot.near_of_le (next _ _ _ _ ha))
  exact fault _ q f (near hpacks hp) hs

/-! ## Rules -/

namespace Rules

/-- The block of a record may be anywhere, but its address fits a word. -/
theorem RecordAt.near {first second : UInt8} {block : Nat}
    (h : RecordAt m p first second block) : m.Near block :=
  Snapshot.near_of_lt (Snapshot.lt_of_wordAt_eq_ok (h.wordAt .responses))

theorem entries_bounded {kind : CommandKind} :
    (entries m kind Version.v0.arguments).Bounded m kind.part where
  record := by
    intro p e k h
    obtain ⟨⟨_, _, hrecord, -⟩, rfl⟩ := entryAt_eq_record_iff_stands.1 h
    exact hrecord.inside
  fault := by
    intro p f hp h
    cases entryAt_eq_error_iff.1 h with
    | first hsize => exact hp.beyond hsize (by omega)
    | second _ _ _ hsize => exact hp.beyond hsize (by omega)
    | low _ _ _ hsize => exact hp.beyond hsize (by omega)
    | high _ _ _ hsize => exact hp.beyond hsize (by omega)
    | block hrecord _ hbody =>
        obtain rfl := readBlock_fault hbody
        exact hrecord.near.beyond (Nat.le_max_right _ _) (by omega)

theorem readCommands_beyond {kind : CommandKind} (hp : m.Near p)
    (h : (readCommands m kind Version.v0.arguments p).result = .error f) :
    m.Beyond kind.part f := by
  exact entries_bounded.beyond hp (Reading.error_of_bind (fun _ => ⟨_, rfl⟩) h)

end Rules

/-! ## Texts -/

namespace Text

theorem tokens_bounded : (tokens m part).Bounded m part where
  record := fun _ _ _ h => tokenAt_inside h
  fault := by
    intro p f hp h
    obtain rfl := tokenAt_fault h
    exact hp.beyond (Nat.le_max_right _ _) (by omega)

theorem read_le_size {text : String} {next : Nat}
    (h : (read m part p).result = .ok (text, next)) : next ≤ m.size := by
  obtain ⟨l, q, -, hend, rfl, -⟩ := read_eq_ok_iff.1 h
  exact Snapshot.lt_size_of_get? hend

theorem read_beyond (hp : m.Near p) (h : (read m part p).result = .error f) :
    m.Beyond part f := by
  exact tokens_bounded.beyond hp (Reading.error_of_bind (fun _ => ⟨_, rfl⟩) h)

theorem readAll_beyond {count : Nat} (hp : m.Near p)
    (h : (readAll m part p count).result = .error f) : m.Beyond part f := by
  have h := Reading.error_of_bind (fun _ => ⟨_, rfl⟩) h
  exact packed_beyond (fun _ _ _ _ h => read_le_size h) (fun _ _ _ hp h => read_beyond hp h) hp h

end Text

/-! ## Exits -/

namespace Exits

theorem pairs_bounded : (pairs m).Bounded m .connections where
  record := fun _ _ _ h => pairAt_inside h
  fault := by
    intro p f hp h
    obtain rfl := pairAt_fault h
    exact hp.beyond (Nat.le_max_right _ _) (by omega)

theorem read_le_size {index next : Nat} {exits : Exits}
    (h : (read m index p).result = .ok (exits, next)) : next ≤ m.size := by
  obtain ⟨l, q, -, hend, rfl, -⟩ := read_eq_ok_iff.1 h
  exact Snapshot.lt_size_of_get? hend

theorem read_beyond {index : Nat} (hp : m.Near p) (h : (read m index p).result = .error f) :
    m.Beyond .connections f := by
  exact pairs_bounded.beyond hp (Reading.error_of_bind (fun _ => ⟨_, rfl⟩) h)

theorem readAll_beyond {count : Nat} (hp : m.Near p)
    (h : (readAll m p count).result = .error f) : m.Beyond .connections f := by
  have h := Reading.error_of_bind (fun _ => ⟨_, rfl⟩) h
  exact packed_beyond (fun _ _ _ _ h => read_le_size h) (fun _ _ _ hp h => read_beyond hp h) hp h

end Exits

/-! ## Words -/

namespace Vocabulary

theorem words_bounded (hm : m.size < addressLimit) : (words m).Bounded m .vocabulary where
  record := by
    intro p e k h
    obtain ⟨-, rfl, s, -, hheld⟩ := wordAt_eq_record_iff.1 h
    have hlen : s.bytes.length = wordLength + 1 := by simp [Stored.bytes, s.length_word]
    rw [← hlen]
    exact hheld.le_size (by simp [Stored.bytes])
  fault := by
    intro p f hp h
    obtain ⟨hsize, rfl⟩ := (wordAt_eq_error_iff hm).1 h
    exact hp.beyond hsize (Nat.add_le_add_right (Nat.le_max_right _ _) 4)

theorem read_beyond (hm : m.size < addressLimit) (hp : m.Near p)
    (h : (read m p).result = .error f) : m.Beyond .vocabulary f := by
  exact (words_bounded hm).beyond hp (Reading.error_of_bind (fun _ => ⟨_, rfl⟩) h)

end Vocabulary
end Adventure
