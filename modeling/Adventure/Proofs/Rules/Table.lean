/-
# The records of a rule table

A rule table is read record by record, four bytes each, so that the record
number `k` stands at `start + 4 * k`.  The block of a record is reached
through a pointer and may stand anywhere, also inside the table.

`CommandAt` says which command a record is, and `RecordFails` at which of its
reads it fails and how.  The main statement is `readCommands_records`: a
table is read exactly where its records lead to a zero byte, and then it has
one command for every record, in their order.  Else the fault is the first
one that is met, and it is always a fault of the table, also inside a block.
-/
import Adventure.Proofs.Rules.Codec
import Adventure.Proofs.Rules.Opcodes

namespace Adventure

/-- The words that a command takes from the first two bytes of its record. -/
def CommandKind.words : CommandKind → (first second : UInt8) → UInt8 × UInt8
  | .response, first, second => (first, second)
  | .process, _, _ => (anyWord, anyWord)

namespace Rules

/-! ## Records -/

/-- The four bytes of the record at `p`: two bytes and the address of a block. -/
structure RecordAt (m : Snapshot) (p : Nat) (first second : UInt8) (block : Nat) : Prop where
  first : m.get? p = some first
  second : m.get? (p + 1) = some second
  block : ∃ low high : UInt8, m.get? (p + 2) = some low ∧ m.get? (p + 3) = some high ∧
    block = low.toNat + 256 * high.toNat

/-- The record at `p` does not end the table, and its words and its block make this entry. -/
def EntryStands (m : Snapshot) (kind : CommandKind) (arguments : ArgumentTable) (p : Nat)
    (e : Entry) : Prop :=
  ∃ first second, RecordAt m p first second e.block ∧ first ≠ 0 ∧
    (e.command.word1, e.command.word2) = kind.words first second ∧
    (readBlock m kind.part arguments e.block).result =
      .ok (e.command.conditions, e.command.actions)

/-- The record at `p` is this command, wherever its block stands. -/
def CommandAt (m : Snapshot) (kind : CommandKind) (arguments : ArgumentTable) (p : Nat)
    (c : Command) : Prop :=
  ∃ block, EntryStands m kind arguments p ⟨c, block⟩

/-- Reading the record at `p` fails with this fault.  Its bytes are read in
their order, the second one for responses only, and its block comes last. -/
inductive RecordFails (m : Snapshot) (kind : CommandKind) (arguments : ArgumentTable) (p : Nat) :
    Fault → Prop
  | first : m.size ≤ p → RecordFails m kind arguments p (.malformed kind.part p)
  | second {b : UInt8} : m.get? p = some b → b ≠ 0 → kind = .response → m.size ≤ p + 1 →
      RecordFails m kind arguments p (.malformed kind.part (p + 1))
  | low {b : UInt8} : m.get? p = some b → b ≠ 0 → (kind = .response → p + 1 < m.size) →
      m.size ≤ p + 2 → RecordFails m kind arguments p (.malformed kind.part (p + 2))
  | high {b : UInt8} : m.get? p = some b → b ≠ 0 → p + 2 < m.size → m.size ≤ p + 3 →
      RecordFails m kind arguments p (.malformed kind.part (p + 3))
  | block {first second : UInt8} {block : Nat} {f : Fault} : RecordAt m p first second block →
      first ≠ 0 → (readBlock m kind.part arguments block).result = .error f →
      RecordFails m kind arguments p f

/-- There are `N` commands from `start` on, and then a zero byte. -/
structure TableEnds (m : Snapshot) (kind : CommandKind) (arguments : ArgumentTable)
    (start N : Nat) : Prop where
  commands : ∀ k < N, ∃ c, CommandAt m kind arguments (start + 4 * k) c
  closed : m.get? (start + 4 * N) = some 0

/-- The record number `k` is the first one that fails, and this is its fault. -/
structure StopsAt (m : Snapshot) (kind : CommandKind) (arguments : ArgumentTable)
    (start k : Nat) (f : Fault) : Prop where
  commands : ∀ j < k, ∃ c, CommandAt m kind arguments (start + 4 * j) c
  fails : RecordFails m kind arguments (start + 4 * k) f

variable {m : Snapshot} {part : Section} {kind : CommandKind} {arguments : ArgumentTable}
  {p start : Nat} {f : Fault}

/-! ## One record -/

/-- All of a record is inside the snapshot. -/
theorem RecordAt.inside {first second : UInt8} {block : Nat}
    (h : RecordAt m p first second block) : p + 3 < m.size := by
  obtain ⟨-, -, _, _, -, hhigh, -⟩ := h
  exact Snapshot.lt_size_of_get? hhigh

theorem RecordAt.wordAt (part : Section) {first second : UInt8} {block : Nat}
    (h : RecordAt m p first second block) : (m.wordAt part p 2).result = .ok block := by
  exact Snapshot.wordAt_eq_ok_iff.2 h.block

theorem exists_recordAt {first : UInt8} {block : Nat} (h0 : m.get? p = some first)
    (hblock : (m.wordAt part p 2).result = .ok block) :
    ∃ second, RecordAt m p first second block := by
  have hbytes := Snapshot.wordAt_eq_ok_iff.1 hblock
  obtain ⟨_, _, hlow, -⟩ := hbytes
  have hsize := Snapshot.lt_size_of_get? hlow
  obtain ⟨second, h1⟩ := Snapshot.exists_get? (m := m) (a := p + 1) (by omega)
  exact ⟨second, h0, h1, Snapshot.wordAt_eq_ok_iff.1 hblock⟩

theorem wordsAt_eq_ok_iff {first second : UInt8} {w : UInt8 × UInt8}
    (h1 : m.get? (p + 1) = some second) :
    (wordsAt m kind p first).result = .ok w ↔ w = kind.words first second := by
  cases kind with
  | response =>
      have byte : (m.byteAt .responses p 1).result = .ok second := Snapshot.byteAt_eq_ok_iff.2 h1
      constructor
      · intro h
        obtain ⟨b, hb, h⟩ := Reading.bind_eq_ok_iff.1 h
        cases byte.symm.trans hb
        cases h
        rfl
      · rintro rfl
        exact Reading.bind_eq_ok_iff.2 ⟨second, byte, rfl⟩
  | process =>
      constructor
      · intro h
        cases h
        rfl
      · rintro rfl
        rfl

theorem wordsAt_eq_error_iff {first : UInt8} :
    (wordsAt m kind p first).result = .error f ↔
      kind = .response ∧ m.size ≤ p + 1 ∧ f = .malformed kind.part (p + 1) := by
  cases kind with
  | response =>
      simp only [true_and]
      constructor
      · intro h
        exact Snapshot.byteAt_eq_error_iff.1 (Reading.error_of_bind (fun _ => ⟨_, rfl⟩) h)
      · intro h
        exact Reading.bind_eq_error_iff.2 (.inl (Snapshot.byteAt_eq_error_iff.2 h))
  | process =>
      constructor
      · intro h
        cases h
      · rintro ⟨h, -⟩
        cases h

/-- The words can be read unless a second byte is wanted that is missing. -/
theorem exists_wordsAt (kind : CommandKind) (first : UInt8)
    (h : kind = .response → p + 1 < m.size) :
    ∃ w, (wordsAt m kind p first).result = .ok w := by
  cases hw : (wordsAt m kind p first).result with
  | ok w => exact ⟨w, rfl⟩
  | error f =>
      obtain ⟨hkind, hsize, -⟩ := wordsAt_eq_error_iff.1 hw
      exact absurd (h hkind) (Nat.not_lt_of_le hsize)

/-- An entry is read exactly where it stands, and it takes four bytes. -/
theorem entryAt_eq_record_iff_stands {e : Entry} {k : Nat} :
    (entryAt m kind arguments p).result = .ok (.record e k) ↔
      EntryStands m kind arguments p e ∧ k = 3 := by
  rw [entryAt_eq_record_iff]
  constructor
  · rintro ⟨first, h0, hne, hwords, hblock, hbody, rfl⟩
    obtain ⟨second, hrecord⟩ := exists_recordAt h0 hblock
    exact ⟨⟨first, second, hrecord, hne, (wordsAt_eq_ok_iff hrecord.second).1 hwords, hbody⟩, rfl⟩
  · rintro ⟨⟨first, second, hrecord, hne, hwords, hbody⟩, rfl⟩
    exact ⟨first, hrecord.first, hne, (wordsAt_eq_ok_iff hrecord.second).2 hwords,
      hrecord.wordAt kind.part, hbody, rfl⟩

/-- Behind a first byte that does not end the table come the words, the
address of the block and the block. -/
theorem entryAt_eq_error_iff_behind {b : UInt8} (h0 : m.get? p = some b) (hne : b ≠ 0) :
    (entryAt m kind arguments p).result = .error f ↔
      (wordsAt m kind p b).result = .error f ∨ ∃ w, (wordsAt m kind p b).result = .ok w ∧
        ((m.wordAt kind.part p 2).result = .error f ∨
          ∃ block, (m.wordAt kind.part p 2).result = .ok block ∧
            (readBlock m kind.part arguments block).result = .error f) := by
  have byte : (m.byteAt kind.part p 0).result = .ok b := Snapshot.byteAt_eq_ok_iff.2 h0
  constructor
  · intro h
    rcases Reading.bind_eq_error_iff.1 h with h | ⟨b', hb, h⟩
    · cases byte.symm.trans h
    cases byte.symm.trans hb
    rw [if_neg hne] at h
    rcases Reading.bind_eq_error_iff.1 h with h | ⟨w, hw, h⟩
    · exact .inl h
    rcases Reading.bind_eq_error_iff.1 h with h | ⟨block, hblock, h⟩
    · exact .inr ⟨w, hw, .inl h⟩
    · exact .inr ⟨w, hw, .inr ⟨block, hblock, Reading.error_of_bind (fun _ => ⟨_, rfl⟩) h⟩⟩
  · intro h
    refine Reading.bind_eq_error_iff.2 (.inr ⟨b, byte, ?_⟩)
    rw [if_neg hne]
    rcases h with h | ⟨w, hw, h | ⟨block, hblock, h⟩⟩
    · exact Reading.bind_eq_error_iff.2 (.inl h)
    · refine Reading.bind_eq_error_iff.2 (.inr ⟨w, hw, ?_⟩)
      exact Reading.bind_eq_error_iff.2 (.inl h)
    · refine Reading.bind_eq_error_iff.2 (.inr ⟨w, hw, ?_⟩)
      refine Reading.bind_eq_error_iff.2 (.inr ⟨block, hblock, ?_⟩)
      exact Reading.bind_eq_error_iff.2 (.inl h)

/-- A record that cannot be read fails at one of its reads. -/
theorem RecordFails.of_entryAt (h : (entryAt m kind arguments p).result = .error f) :
    RecordFails m kind arguments p f := by
  cases h0 : m.get? p with
  | none =>
      have hsize := Snapshot.get?_eq_none_iff.1 h0
      have byte : (m.byteAt kind.part p 0).result = .error (.malformed kind.part p) :=
        Snapshot.byteAt_eq_error_iff.2 ⟨hsize, rfl⟩
      have fails : (entryAt m kind arguments p).result = .error (.malformed kind.part p) :=
        Reading.bind_eq_error_iff.2 (.inl byte)
      cases fails.symm.trans h
      exact .first hsize
  | some b =>
      have hne : b ≠ 0 := by
        rintro rfl
        cases (entryAt_eq_stop_iff.2 ⟨rfl, h0⟩).symm.trans h
      rcases (entryAt_eq_error_iff_behind h0 hne).1 h with h | ⟨w, hw, h | ⟨block, hblock, h⟩⟩
      · obtain ⟨hkind, hsize, rfl⟩ := wordsAt_eq_error_iff.1 h
        exact .second h0 hne hkind hsize
      · have hsecond : kind = .response → p + 1 < m.size := by
          intro hkind
          refine Nat.lt_of_not_le fun hsize => ?_
          cases hw.symm.trans (wordsAt_eq_error_iff.2 ⟨hkind, hsize, rfl⟩)
        obtain ⟨hsize, rfl⟩ := Snapshot.wordAt_eq_error_iff.1 h
        by_cases hlow : m.size ≤ p + 2
        · rw [Nat.max_eq_left hlow]
          exact .low h0 hne hsecond hlow
        · rw [show max (p + 2) m.size = p + 3 by omega]
          exact .high h0 hne (by omega) (by omega)
      · obtain ⟨second, hrecord⟩ := exists_recordAt h0 hblock
        exact .block hrecord hne h

/-- Where one of its reads fails, a record cannot be read. -/
theorem RecordFails.entryAt (h : RecordFails m kind arguments p f) :
    (entryAt m kind arguments p).result = .error f := by
  cases h with
  | first hsize =>
      exact Reading.bind_eq_error_iff.2 (.inl (Snapshot.byteAt_eq_error_iff.2 ⟨hsize, rfl⟩))
  | second h0 hne hkind hsize =>
      refine (entryAt_eq_error_iff_behind h0 hne).2 (.inl ?_)
      exact wordsAt_eq_error_iff.2 ⟨hkind, hsize, rfl⟩
  | @low b h0 hne hsecond hsize =>
      obtain ⟨w, hw⟩ := exists_wordsAt kind b hsecond
      refine (entryAt_eq_error_iff_behind h0 hne).2 (.inr ⟨w, hw, .inl ?_⟩)
      refine Snapshot.wordAt_eq_error_iff.2 ⟨by omega, ?_⟩
      rw [Nat.max_eq_left hsize]
  | @high b h0 hne hlow hsize =>
      obtain ⟨w, hw⟩ := exists_wordsAt kind b fun _ => Nat.lt_of_succ_lt hlow
      refine (entryAt_eq_error_iff_behind h0 hne).2 (.inr ⟨w, hw, .inl ?_⟩)
      refine Snapshot.wordAt_eq_error_iff.2 ⟨by omega, ?_⟩
      rw [show max (p + 2) m.size = p + 3 by omega]
  | @block first second block _ hrecord hne hbody =>
      have hsecond : p + 1 < m.size := Nat.lt_of_le_of_lt (by omega) hrecord.inside
      obtain ⟨w, hw⟩ := exists_wordsAt kind first fun _ => hsecond
      refine (entryAt_eq_error_iff_behind hrecord.first hne).2 (.inr ⟨w, hw, .inr ?_⟩)
      exact ⟨block, hrecord.wordAt kind.part, hbody⟩

/-- A record cannot be read exactly when one of its reads fails. -/
theorem entryAt_eq_error_iff :
    (entryAt m kind arguments p).result = .error f ↔ RecordFails m kind arguments p f :=
  ⟨RecordFails.of_entryAt, RecordFails.entryAt⟩

/-! ## Blocks of any table -/

/-- A fault inside a block is a fault of the section it is read for. -/
theorem readBlock_fault_part (h : (readBlock m part arguments p).result = .error f) :
    ∃ offset, f = .malformed part offset := by
  rcases Reading.bind_eq_error_iff.1 h with h | ⟨out, -, h⟩
  · exact ⟨_, readConditions_fault h⟩
  · obtain ⟨_, -, offset, -, rfl⟩ :=
      readActions_eq_error_iff.1 (Reading.error_of_bind (fun _ => ⟨_, rfl⟩) h)
    exact ⟨offset, rfl⟩

theorem RecordFails.named (h : RecordFails m kind arguments p f) :
    ∃ offset, f = .malformed kind.part offset := by
  cases h with
  | first _ => exact ⟨_, rfl⟩
  | second _ _ _ _ => exact ⟨_, rfl⟩
  | low _ _ _ _ => exact ⟨_, rfl⟩
  | high _ _ _ _ => exact ⟨_, rfl⟩
  | block _ _ h => exact readBlock_fault_part h

/-! ## The whole table -/

/-- The entries of a table stand four bytes apart. -/
theorem entries_places (m : Snapshot) (kind : CommandKind) (arguments : ArgumentTable) :
    (entries m kind arguments).Places (fun q => q + 4) (EntryStands m kind arguments) where
  record := by
    intro p e
    constructor
    · rintro ⟨k, h⟩
      exact (entryAt_eq_record_iff_stands.1 h).1
    · intro h
      exact ⟨3, entryAt_eq_record_iff_stands.2 ⟨h, rfl⟩⟩
  behind := by
    intro p e k h
    obtain ⟨-, rfl⟩ := entryAt_eq_record_iff_stands.1 h
    rfl

theorem entries_passes_iff {l : List Entry} {q : Nat} :
    (entries m kind arguments).Passes start l q ↔
      (∀ k e, l[k]? = some e → EntryStands m kind arguments (start + 4 * k) e) ∧
        q = start + 4 * l.length := by
  simpa only [Records.iterate_stride] using
    (entries_places m kind arguments).passes_iff

/-- Where commands stand one behind the other, a walk passes them. -/
theorem exists_passes_of_commands {N : Nat}
    (h : ∀ k < N, ∃ c, CommandAt m kind arguments (start + 4 * k) c) :
    ∃ l, l.length = N ∧ (entries m kind arguments).Passes start l (start + 4 * N) := by
  have stands : ∀ k < N, ∃ e, EntryStands m kind arguments ((fun q => q + 4)^[k] start) e := by
    intro k hk
    obtain ⟨c, block, hc⟩ := h k hk
    rw [Records.iterate_stride]
    exact ⟨_, hc⟩
  simpa only [Records.iterate_stride] using (entries_places m kind arguments).exists_passes stands

/-- The commands that a walk passes stand four bytes apart. -/
theorem commands_of_passes {l : List Entry} {q : Nat}
    (h : (entries m kind arguments).Passes start l q) :
    ∀ k c, (l.map Entry.command)[k]? = some c → CommandAt m kind arguments (start + 4 * k) c := by
  intro k c hc
  rw [List.getElem?_map, Option.map_eq_some_iff] at hc
  obtain ⟨e, he, rfl⟩ := hc
  exact ⟨e.block, (entries_passes_iff.1 h).1 k e he⟩

theorem exists_command_of_passes {l : List Entry} {q : Nat}
    (h : (entries m kind arguments).Passes start l q) :
    ∀ k < l.length, ∃ c, CommandAt m kind arguments (start + 4 * k) c := by
  intro k hk
  have he : (l.map Entry.command)[k]? = some l[k].command := by simp [hk]
  exact ⟨_, commands_of_passes h k _ he⟩

/-- A table that is read has one command for every record. -/
theorem commands_of_readCommands {table : CommandTable}
    (h : (readCommands m kind arguments start).result = .ok table) :
    TableEnds m kind arguments start (Chain.listOf table).length ∧
      ∀ k c, (Chain.listOf table)[k]? = some c → CommandAt m kind arguments (start + 4 * k) c := by
  obtain ⟨l, q, hpass, hover, rfl⟩ := readCommands_eq_ok_iff.1 h
  rw [Chain.listOf_ofList?, List.length_map]
  rw [(entries_passes_iff.1 hpass).2] at hover
  exact ⟨⟨exists_command_of_passes hpass, hover⟩, commands_of_passes hpass⟩

theorem exists_readCommands_iff :
    (∃ table, (readCommands m kind arguments start).result = .ok table) ↔
      ∃ N, TableEnds m kind arguments start N := by
  constructor
  · rintro ⟨table, h⟩
    exact ⟨_, (commands_of_readCommands h).1⟩
  · rintro ⟨N, hends⟩
    obtain ⟨l, -, hpass⟩ := exists_passes_of_commands hends.commands
    exact ⟨_, readCommands_eq_ok_iff.2 ⟨l, _, hpass, hends.closed, rfl⟩⟩

/-- A table cannot be read exactly when its reading stops at one of its records. -/
theorem readCommands_eq_error_iff :
    (readCommands m kind arguments start).result = .error f ↔
      ∃ k, StopsAt m kind arguments start k f := by
  constructor
  · intro h
    obtain ⟨l, q, hpass, hs⟩ :=
      Records.walk_eq_error_iff.1 (Reading.error_of_bind (fun _ => ⟨_, rfl⟩) h)
    rw [(entries_passes_iff.1 hpass).2] at hs
    exact ⟨l.length, exists_command_of_passes hpass, entryAt_eq_error_iff.1 hs⟩
  · rintro ⟨k, hcommands, hfails⟩
    obtain ⟨l, -, hpass⟩ := exists_passes_of_commands hcommands
    have hs := entryAt_eq_error_iff.2 hfails
    exact Reading.bind_eq_error_iff.2 (.inl (Records.walk_eq_error_iff.2 ⟨l, _, hpass, hs⟩))

/-! ## Reading by the records -/

/-- What reading a rule table comes to, told by its records. -/
structure TableByRecords (m : Snapshot) (kind : CommandKind) (arguments : ArgumentTable)
    (start : Nat) : Prop where
  /-- A table is read where its records lead to a zero byte. -/
  succeeds : (∃ table, (readCommands m kind arguments start).result = .ok table) ↔
    ∃ N, TableEnds m kind arguments start N
  /-- It has one command for every record, in their order, and is none without records. -/
  commands : ∀ table, (readCommands m kind arguments start).result = .ok table →
    ∃ N, TableEnds m kind arguments start N ∧ (Chain.listOf table).length = N ∧
      (table = none ↔ N = 0) ∧ ∀ k c, (Chain.listOf table)[k]? = some c →
        CommandAt m kind arguments (start + 4 * k) c
  /-- Else the fault is that of the first record that fails. -/
  fault : ∀ f, (readCommands m kind arguments start).result = .error f ↔
    ∃ k, StopsAt m kind arguments start k f
  /-- Every fault names the table. -/
  named : ∀ f, (readCommands m kind arguments start).result = .error f →
    ∃ offset, f = .malformed kind.part offset

/-- Rule tables of both kinds are read by their records, with every argument table. -/
theorem readCommands_records (m : Snapshot) (kind : CommandKind) (arguments : ArgumentTable)
    (start : Nat) : TableByRecords m kind arguments start := by
  refine ⟨?succeeds, ?commands, ?fault, ?named⟩
  case succeeds => exact exists_readCommands_iff
  case commands =>
    intro table h
    obtain ⟨hends, hcommands⟩ := commands_of_readCommands h
    exact ⟨_, hends, rfl, Chain.length_listOf_eq_zero_iff.symm, hcommands⟩
  case fault => exact fun f => readCommands_eq_error_iff
  case named =>
    intro f h
    obtain ⟨k, hstops⟩ := readCommands_eq_error_iff.1 h
    exact hstops.fails.named

end Rules
end Adventure
