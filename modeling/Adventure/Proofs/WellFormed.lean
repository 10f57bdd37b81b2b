/-
# Every decoded database is well formed

`Database.WellFormed` says what a database keeps of the way it was read.  The
parts fit each other, the counts fit a byte, maps have no key twice, words
are short Latin-1 texts without white space around them, and rules have the
words and the parameters that their opcodes ask for.  That of the maps is
their own and holds of every map; no proof takes it from here.

Each part is an invariant of one walk: what holds of every record that can be
read holds of all that were passed.  The main statement is
`decode_wellFormed`; it holds whatever bytes the snapshot consists of.
-/
import Adventure.Proofs.Blank
import Adventure.Proofs.Decode
import Adventure.Proofs.OrderedMap
import Adventure.Proofs.Rules.Format
import Adventure.Proofs.Tables
import Adventure.Proofs.Text.Format

namespace Adventure

variable {m : Snapshot} {part : Section} {p : Nat}

/-! ## Words -/

namespace Vocabulary

/-- A word as it is kept: short, Latin-1, and without white space around it. -/
structure Word (s : String) : Prop where
  length_le : s.toList.length ≤ wordLength
  latin : ∀ c ∈ s.toList, c.toNat ≤ 0xff
  head : ∀ c, s.toList.head? = some c → Blank.isBlank c = false
  last : ∀ c, s.toList.getLast? = some c → Blank.isBlank c = false

theorem word_spell (s : Stored) : Word (spell s.word) := by
  refine ⟨?_, ?_, ?_, ?_⟩
  · rw [spell, String.toList_ofList]
    refine Nat.le_trans (Blank.length_trimList_le _) ?_
    rw [List.length_map, s.length_word]
  · rw [spell, String.toList_ofList]
    intro c hc
    obtain ⟨b, -, rfl⟩ := List.mem_map.1 (Blank.mem_of_mem_trimList hc)
    rw [Charset.toNat_latin]
    exact Nat.le_of_lt_succ (UInt8.toNat_lt _)
  · intro c hc
    rw [spell, String.toList_ofList] at hc
    exact Blank.isBlank_head_trimList hc
  · intro c hc
    rw [spell, String.toList_ofList] at hc
    exact Blank.isBlank_getLast_trimList hc

/-- No word twice, and no token that ends the table. -/
structure WellFormed (v : Vocabulary) : Prop where
  nodup : v.keys.Nodup
  word : ∀ e ∈ v.entries, Word e.1
  token_ne : ∀ e ∈ v.entries, e.2 ≠ 0

theorem wellFormed_of_read {v : Vocabulary} (h : (read m p).result = .ok v) : v.WellFormed := by
  obtain ⟨list, q, hpass, -, rfl⟩ := read_eq_ok_iff.1 h
  have stored : ∀ e ∈ list, ∃ s : Stored, e = (spell s.word, s.token) := by
    refine hpass.forall ?_
    intro p e k hs
    obtain ⟨-, -, s, he, -⟩ := wordAt_eq_record_iff.1 hs
    exact ⟨s, he⟩
  refine ⟨OrderedMap.nodup_keys _, ?_, ?_⟩
  · intro e he
    obtain ⟨s, rfl⟩ := stored e (OrderedMap.mem_of_mem_entries_ofList he)
    exact word_spell s
  · intro e he
    obtain ⟨s, rfl⟩ := stored e (OrderedMap.mem_of_mem_entries_ofList he)
    exact s.token_ne

end Vocabulary

/-! ## Exits -/

namespace Exits

/-- No direction twice, and none that ends the exits of a location. -/
structure WellFormed (exits : Exits) : Prop where
  nodup : exits.keys.Nodup
  direction_ne : ∀ e ∈ exits.entries, e.1 ≠ endOfExits

theorem wellFormed_of_read {index next : Nat} {exits : Exits}
    (h : (read m index p).result = .ok (exits, next)) : exits.WellFormed := by
  obtain ⟨list, q, hpass, -, -, rfl⟩ := read_eq_ok_iff.1 h
  have directions : ∀ e ∈ list, e.1 ≠ endOfExits := by
    refine hpass.forall ?_
    intro p e k hs
    exact (pairAt_eq_record_iff.1 hs).1
  refine ⟨OrderedMap.nodup_keys _, ?_⟩
  intro e he
  exact directions e (OrderedMap.mem_of_mem_entries_ofList he)

theorem wellFormed_of_readAll {count : Nat} {rows : List Exits}
    (h : (readAll m p count).result = .ok rows) :
    rows.length = count ∧ ∀ exits ∈ rows, exits.WellFormed := by
  obtain ⟨hlen, next, hpacks⟩ := readAll_eq_ok_iff.1 h
  exact ⟨hlen, hpacks.forall fun _ _ _ _ hr => wellFormed_of_read hr⟩

end Exits

/-! ## Rules -/

/-- The words of a command that was read from a table of a kind. -/
def CommandKind.Admits : CommandKind → Command → Prop
  | .response, c => c.word1 ≠ 0
  | .process, c => c.word1 = anyWord ∧ c.word2 = anyWord

/-- The words, the conditions and the actions of a command that was read. -/
structure Command.WellFormed (kind : CommandKind) (c : Command) : Prop where
  words : kind.Admits c
  conditions : ∀ x ∈ c.conditions, x.WellFormed
  actions : ∀ a ∈ c.actionList, a.WellFormed Version.v0.arguments
  /-- No action has more than two parameters. -/
  second : ∀ a ∈ c.actionList, (a.param2.isSome ↔ Version.v0.arguments.count a.opcode = 2)

namespace Rules

theorem wellFormed_of_readBlock {arguments : ArgumentTable} {cs : List Condition}
    {as : Option (Chain Action)} (h : (readBlock m part arguments p).result = .ok (cs, as)) :
    (∀ c ∈ cs, c.WellFormed) ∧ ∀ a ∈ Chain.listOf as, a.WellFormed arguments := by
  obtain ⟨next, hcs, has⟩ := readBlock_eq_ok_iff.1 h
  obtain ⟨_, hconditions, -, -⟩ := readConditions_eq_ok_iff.1 hcs
  obtain ⟨_, _, hactions, -, rfl⟩ := readActions_eq_ok_iff.1 has
  refine ⟨hconditions.forall ?_, ?_⟩
  · intro p c k hs
    exact (conditionAt_eq_record_iff.1 hs).1
  · rw [Chain.listOf_ofList?]
    refine hactions.forall ?_
    intro p a k hs
    exact (actionAt_eq_record_iff.1 hs).1

theorem admits_of_wordsAt {kind : CommandKind} {first : UInt8} {c : Command} (hne : first ≠ 0)
    (h : (wordsAt m kind p first).result = .ok (c.word1, c.word2)) : kind.Admits c := by
  cases kind with
  | response =>
      obtain ⟨second, -, h⟩ := Reading.bind_eq_ok_iff.1 h
      obtain ⟨rfl, rfl⟩ : first = c.word1 ∧ second = c.word2 := by simpa using h
      exact hne
  | process =>
      obtain ⟨h1, h2⟩ : anyWord = c.word1 ∧ anyWord = c.word2 := by simpa [wordsAt] using h
      exact ⟨h1.symm, h2.symm⟩

theorem wellFormed_of_readCommands {kind : CommandKind} {table : CommandTable}
    (h : (readCommands m kind Version.v0.arguments p).result = .ok table) :
    ∀ c ∈ Chain.listOf table, c.WellFormed kind := by
  obtain ⟨list, q, hpass, -, rfl⟩ := readCommands_eq_ok_iff.1 h
  have entries : ∀ e ∈ list, e.command.WellFormed kind := by
    refine hpass.forall ?_
    intro p e k hs
    obtain ⟨first, -, hne, hwords, -, hblock, -⟩ := entryAt_eq_record_iff.1 hs
    obtain ⟨hconditions, hactions⟩ := wellFormed_of_readBlock hblock
    refine ⟨admits_of_wordsAt hne hwords, hconditions, hactions, ?_⟩
    intro a ha
    have hcount := Version.count_le_two a.opcode
    rw [(hactions a ha).2.2]
    omega
  rw [Chain.listOf_ofList?]
  intro c hc
  obtain ⟨e, he, rfl⟩ := List.mem_map.1 hc
  exact entries e he

end Rules

/-! ## Databases -/

namespace Database

/-- What a database keeps of the way it was read. -/
structure WellFormed (d : Database) : Prop where
  exits_per_location : d.connections.length = d.locations.length
  position_per_object : d.positions.length = d.objects.length
  objects_le : d.objects.length ≤ 255
  locations_le : d.locations.length ≤ 255
  messages_le : d.messages.length ≤ 255
  vocabulary : d.vocabulary.WellFormed
  connections : ∀ exits ∈ d.connections, exits.WellFormed
  responses : ∀ c ∈ Chain.listOf d.responses, c.WellFormed .response
  processes : ∀ c ∈ Chain.listOf d.processes, c.WellFormed .process

theorem ReadsTo.wellFormed {h : Header} {d : Database}
    (hr : ReadsTo m Version.v0.arguments h d) : d.WellFormed := by
  have objects := (Text.readAll_eq_ok_iff.1 hr.objects).1
  have locations := (Text.readAll_eq_ok_iff.1 hr.locations).1
  have messages := (Text.readAll_eq_ok_iff.1 hr.messages).1
  obtain ⟨hrows, hexits⟩ := Exits.wellFormed_of_readAll hr.connections
  obtain ⟨-, -, hpositions, -⟩ := Snapshot.slice_eq_ok_iff.1 hr.positions
  refine
    { exits_per_location := hrows.trans locations.symm
      position_per_object := hpositions.trans objects.symm
      objects_le := ?_
      locations_le := ?_
      messages_le := ?_
      vocabulary := Vocabulary.wellFormed_of_read hr.vocabulary
      connections := hexits
      responses := Rules.wellFormed_of_readCommands hr.responses
      processes := Rules.wellFormed_of_readCommands hr.processes }
  · rw [objects]
    exact Nat.le_of_lt_succ h.objectCount.toNat_lt
  · rw [locations]
    exact Nat.le_of_lt_succ h.locationCount.toNat_lt
  · rw [messages]
    exact Nat.le_of_lt_succ h.messageCount.toNat_lt

/-- Whatever a snapshot holds, what is decoded from it is well formed. -/
theorem decode_wellFormed {o : Options} {d : Database} (h : (decode m o).result = .ok d) :
    d.WellFormed := by
  obtain ⟨-, anchor, header, -, -, hr⟩ := decode_eq_ok_iff.1 h
  exact hr.wellFormed

/-- An image in which both rule tables are one, and so are the texts and the exits. -/
def overlappedImage : Snapshot :=
  ⟨#[0, 0, 17, 0, 18, 0, 19, 0, 20, 0, 21, 0, 0,
     3, 1, 1, 0, 40, 0, 40, 0, 33, 0, 33, 0, 33, 0, 33, 0, 50, 0, 0, 0,
     35, 0, 65, 224, 65, 9, 255,
     7, 0, 45, 0, 0, 3, 0, 255, 4, 255,
     177, 223, 223, 223, 9, 223, 177, 223, 223, 8, 0, 0, 0, 0, 0]⟩

theorem decode_wellFormed_overlapped :
    ∃ d, (decode overlappedImage ⟨0, 0⟩).result = .ok d ∧ d.WellFormed := by
  have succeeds : (decode overlappedImage ⟨0, 0⟩).result.toBool = true := by decide +kernel
  cases h : (decode overlappedImage ⟨0, 0⟩).result with
  | error f =>
      rw [h] at succeeds
      cases succeeds
  | ok d => exact ⟨d, rfl, decode_wellFormed h⟩

end Database
end Adventure
