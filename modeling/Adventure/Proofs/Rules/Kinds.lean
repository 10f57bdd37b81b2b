/-
# One table read as both kinds

The two kinds of rule tables have the same records.  A process table is read
without its words, and where a word is missing it is not missed, so that the
reading comes one byte further before it fails.

The main statement is `readCommands_kinds`: read as one kind or as the other,
a table is read or not read alike.  The commands are the same but for their
words, and where the reading fails it fails at the same record and at the
same byte, unless the snapshot ends right behind the first byte of a record.
-/
import Adventure.Proofs.Rules.Table

namespace Adventure

/-- The command with words that match every word. -/
def Command.wordless (c : Command) : Command :=
  { c with word1 := anyWord, word2 := anyWord }

namespace Rules

variable {m : Snapshot} {part part' : Section} {kind : CommandKind} {arguments : ArgumentTable}
  {p start : Nat} {f g : Fault}

/-- The snapshot ends behind the first byte of the record at `p`. -/
def CutShort (m : Snapshot) (p : Nat) : Prop :=
  p + 1 = m.size ∧ m.get? p ≠ some 0

/-! ## Blocks -/

/-- What a block is does not depend on the section it is read for. -/
theorem readBlock_ok_of_part {body : List Condition × Option (Chain Action)}
    (h : (readBlock m part arguments p).result = .ok body) :
    (readBlock m part' arguments p).result = .ok body := by
  obtain ⟨next, hcs, has⟩ := readBlock_eq_ok_iff.1 h
  refine readBlock_eq_ok_iff.2 ⟨next, ?_, ?_⟩
  · exact readConditions_eq_ok_iff_holds.2 (readConditions_eq_ok_iff_holds.1 hcs)
  · exact readActions_eq_ok_iff_places.2 (readActions_eq_ok_iff_places.1 has)

/-- Nor does it matter for where a block fails. -/
theorem readBlock_error_of_part {offset : Nat}
    (h : (readBlock m part arguments p).result = .error (.malformed part offset)) :
    (readBlock m part' arguments p).result = .error (.malformed part' offset) := by
  rcases Reading.bind_eq_error_iff.1 h with h | ⟨⟨cs, next⟩, hcs, h⟩
  · have offset_eq : offset = max p m.size := by
      cases readConditions_fault h
      rfl
    refine Reading.bind_eq_error_iff.2 (.inl ?_)
    cases hr : (readConditions m part' p).result with
    | error g => rw [readConditions_fault hr, offset_eq]
    | ok out =>
        have hok : (readConditions m part p).result = .ok (out.1, out.2) :=
          readConditions_eq_ok_iff_holds.2 (readConditions_eq_ok_iff_holds.1 hr)
        cases hok.symm.trans h
  · obtain ⟨k, hstands, a, ha, hf⟩ :=
      readActions_eq_error_iff.1 (Reading.error_of_bind (fun _ => ⟨_, rfl⟩) h)
    cases hf
    have hcs' : (readConditions m part' p).result = .ok (cs, next) :=
      readConditions_eq_ok_iff_holds.2 (readConditions_eq_ok_iff_holds.1 hcs)
    have has : (readActions m part' arguments next).result = .error (.malformed part' offset) :=
      readActions_eq_error_iff.2 ⟨k, hstands, offset, ha, rfl⟩
    exact Reading.bind_eq_error_iff.2
      (.inr ⟨(cs, next), hcs', Reading.bind_eq_error_iff.2 (.inl has)⟩)

/-! ## Records -/

/-- A response is a process too, without its words. -/
theorem EntryStands.wordless {e : Entry} (h : EntryStands m .response arguments p e) :
    EntryStands m .process arguments p ⟨e.command.wordless, e.block⟩ := by
  obtain ⟨first, second, hrecord, hne, -, hbody⟩ := h
  exact ⟨first, second, hrecord, hne, rfl, readBlock_ok_of_part hbody⟩

/-- A process is a response too, with the words that it does not read. -/
theorem exists_response_of_process {c : Command} (h : CommandAt m .process arguments p c) :
    ∃ d, CommandAt m .response arguments p d := by
  obtain ⟨block, first, second, hrecord, hne, -, hbody⟩ := h
  exact ⟨⟨first, second, c.conditions, c.actions⟩, block, first, second, hrecord, hne, rfl,
    readBlock_ok_of_part hbody⟩

theorem exists_process_of_response {c : Command} (h : CommandAt m .response arguments p c) :
    ∃ d, CommandAt m .process arguments p d := by
  obtain ⟨block, h⟩ := h
  exact ⟨c.wordless, block, h.wordless⟩

theorem RecordAt.not_cutShort {first second : UInt8} {block : Nat}
    (h : RecordAt m p first second block) : ¬ CutShort m p := by
  rintro ⟨hsize, -⟩
  have := h.inside
  omega

/-- A record that fails as a response fails as a process, one byte further
when the second byte is the one that is missing. -/
theorem RecordFails.process (h : RecordFails m .response arguments p f) :
    ∃ offset, f = .malformed .responses offset ∧
      (CutShort m p → offset = m.size ∧
        RecordFails m .process arguments p (.malformed .processes (m.size + 1))) ∧
      (¬ CutShort m p → RecordFails m .process arguments p (.malformed .processes offset)) := by
  cases h with
  | first hsize =>
      refine ⟨p, rfl, ?_, fun _ => .first hsize⟩
      rintro ⟨hcut, -⟩
      omega
  | @second b h0 hne _ hsize =>
      have r0 := Snapshot.lt_size_of_get? h0
      have hcut : p + 1 = m.size := by omega
      refine ⟨p + 1, rfl, fun _ => ⟨hcut, ?_⟩, fun hn => absurd ⟨hcut, ?_⟩ hn⟩
      · rw [← hcut]
        exact .low h0 hne (by simp) (by omega)
      · rw [h0]
        intro hb
        exact hne (Option.some.inj hb)
  | low h0 hne hsecond hsize =>
      refine ⟨p + 2, rfl, ?_, fun _ => .low h0 hne (by simp) hsize⟩
      rintro ⟨hcut, -⟩
      have := hsecond rfl
      omega
  | high h0 hne hlow hsize =>
      refine ⟨p + 3, rfl, ?_, fun _ => .high h0 hne hlow hsize⟩
      rintro ⟨hcut, -⟩
      omega
  | block hrecord hne hbody =>
      obtain ⟨offset, rfl⟩ := readBlock_fault_part hbody
      refine ⟨offset, rfl, fun hcut => absurd hcut hrecord.not_cutShort, fun _ => ?_⟩
      exact .block hrecord hne (readBlock_error_of_part hbody)

/-! ## Tables -/

/-- A table that is read as responses is read as processes, without its words. -/
theorem readCommands_process {table : CommandTable}
    (h : (readCommands m .response arguments start).result = .ok table) :
    (readCommands m .process arguments start).result =
      .ok (Chain.ofList? ((Chain.listOf table).map Command.wordless)) := by
  obtain ⟨l, q, hpass, hover, rfl⟩ := readCommands_eq_ok_iff.1 h
  obtain ⟨hl, rfl⟩ := entries_passes_iff.1 hpass
  have hpass' : (entries m .process arguments).Passes start
      (l.map fun e => ⟨e.command.wordless, e.block⟩) (start + 4 * l.length) := by
    refine entries_passes_iff.2 ⟨?_, by rw [List.length_map]⟩
    intro k e he
    rw [List.getElem?_map, Option.map_eq_some_iff] at he
    obtain ⟨d, hd, rfl⟩ := he
    exact (hl k d hd).wordless
  refine readCommands_eq_ok_iff.2 ⟨_, _, hpass', hover, ?_⟩
  rw [Chain.listOf_ofList?, List.map_map, List.map_map]
  rfl

/-- No reading stops at two records. -/
theorem StopsAt.unique {j k : Nat} (h : StopsAt m kind arguments start j f)
    (h' : StopsAt m kind arguments start k g) : j = k := by
  have behind : ∀ {j k f g}, StopsAt m kind arguments start j f →
      StopsAt m kind arguments start k g → ¬ j < k := by
    intro j k f g h h' hlt
    obtain ⟨c, block, hc⟩ := h'.commands j hlt
    have hs := entryAt_eq_record_iff_stands.2 ⟨hc, rfl⟩
    cases hs.symm.trans (entryAt_eq_error_iff.2 h.fails)
  have := behind h h'
  have := behind h' h
  omega

/-! ## Agreement -/

/-- What reading one table as responses and as processes comes to. -/
structure KindsAgree (m : Snapshot) (arguments : ArgumentTable) (start : Nat) : Prop where
  /-- The table is read as both kinds or as none. -/
  succeed : (∃ table, (readCommands m .response arguments start).result = .ok table) ↔
    ∃ table, (readCommands m .process arguments start).result = .ok table
  /-- The processes are the responses without their words. -/
  commands : ∀ r q, (readCommands m .response arguments start).result = .ok r →
    (readCommands m .process arguments start).result = .ok q →
      Chain.listOf q = (Chain.listOf r).map Command.wordless
  /-- Both readings stop at one record and at one byte, if its second byte is not cut off. -/
  faults : ∀ f g, (readCommands m .response arguments start).result = .error f →
    (readCommands m .process arguments start).result = .error g →
      ∃ k offset, StopsAt m .response arguments start k f ∧
        StopsAt m .process arguments start k g ∧ f = .malformed .responses offset ∧
        (CutShort m (start + 4 * k) →
          offset = m.size ∧ g = .malformed .processes (m.size + 1)) ∧
        (¬ CutShort m (start + 4 * k) → g = .malformed .processes offset)
  /-- There is one record only at which a reading stops. -/
  record : ∀ kind j k f g, StopsAt m kind arguments start j f →
    StopsAt m kind arguments start k g → j = k

/-- Every rule table is read alike as both kinds, with every argument table. -/
theorem readCommands_kinds (m : Snapshot) (arguments : ArgumentTable) (start : Nat) :
    KindsAgree m arguments start := by
  refine ⟨?succeed, ?commands, ?faults, ?record⟩
  case succeed =>
    constructor
    · rintro ⟨table, h⟩
      exact ⟨_, readCommands_process h⟩
    · intro h
      obtain ⟨N, hends⟩ := exists_readCommands_iff.1 h
      refine exists_readCommands_iff.2 ⟨N, fun k hk => ?_, hends.closed⟩
      obtain ⟨c, hc⟩ := hends.commands k hk
      exact exists_response_of_process hc
  case commands =>
    intro r q hr hq
    cases hq.symm.trans (readCommands_process hr)
    exact Chain.listOf_ofList? _
  case faults =>
    intro f g hf hg
    obtain ⟨k, hstops⟩ := readCommands_eq_error_iff.1 hf
    obtain ⟨offset, rfl, hcut, hwhole⟩ := hstops.fails.process
    -- What stands in front is read as both kinds, so both readings get to record `k`.
    have before : ∀ j < k, ∃ c, CommandAt m .process arguments (start + 4 * j) c := by
      intro j hj
      obtain ⟨c, hc⟩ := hstops.commands j hj
      exact exists_process_of_response hc
    have stops : ∀ {g'}, RecordFails m .process arguments (start + 4 * k) g' →
        g = g' ∧ StopsAt m .process arguments start k g' := by
      intro g' h
      have hstops' : StopsAt m .process arguments start k g' := ⟨before, h⟩
      cases hg.symm.trans (readCommands_eq_error_iff.2 ⟨k, hstops'⟩)
      exact ⟨rfl, hstops'⟩
    by_cases h : CutShort m (start + 4 * k)
    · obtain ⟨hoffset, hfails⟩ := hcut h
      obtain ⟨rfl, hstops'⟩ := stops hfails
      exact ⟨k, offset, hstops, hstops', rfl, fun _ => ⟨hoffset, rfl⟩, fun hn => absurd h hn⟩
    · obtain ⟨rfl, hstops'⟩ := stops (hwhole h)
      exact ⟨k, offset, hstops, hstops', rfl, fun hc => absurd hc h, fun _ => rfl⟩
  case record => exact fun kind j k f g h h' => h.unique h'

end Rules
end Adventure
