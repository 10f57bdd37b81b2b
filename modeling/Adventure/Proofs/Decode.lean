/-
# When a decode succeeds

A decode succeeds exactly when its version is known, the marker can be found,
the header behind it can be resolved and each of the eight tables can be
read.  The database then consists of what the tables say, and no table
depends on what another one holds.
-/
import Adventure.Database.Decode
import Adventure.Proofs.Header

namespace Adventure
namespace Database

variable {m : Snapshot} {o : Options} {d : Database}

/-- Each part of a database is what its table says. -/
structure ReadsTo (m : Snapshot) (arguments : ArgumentTable) (h : Header) (d : Database) :
    Prop where
  responses : (Rules.readCommands m .response arguments h.responses).result = .ok d.responses
  processes : (Rules.readCommands m .process arguments h.processes).result = .ok d.processes
  objects : (Text.readAll m .objects h.objects h.objectCount.toNat).result = .ok d.objects
  locations : (Text.readAll m .locations h.locations h.locationCount.toNat).result =
    .ok d.locations
  messages : (Text.readAll m .messages h.messages h.messageCount.toNat).result = .ok d.messages
  connections : (Exits.readAll m h.connections h.locationCount.toNat).result = .ok d.connections
  vocabulary : (Vocabulary.read m h.vocabulary).result = .ok d.vocabulary
  positions : (m.slice .positions h.positions h.objectCount.toNat).result = .ok d.positions
  carried : d.carried = h.carried

theorem readTables_eq_ok_iff {arguments : ArgumentTable} {h : Header} :
    (readTables m arguments h).result = .ok d ↔ ReadsTo m arguments h d := by
  constructor
  · intro hr
    obtain ⟨_, responses, hr⟩ := Reading.bind_eq_ok_iff.1 hr
    obtain ⟨_, processes, hr⟩ := Reading.bind_eq_ok_iff.1 hr
    obtain ⟨_, objects, hr⟩ := Reading.bind_eq_ok_iff.1 hr
    obtain ⟨_, locations, hr⟩ := Reading.bind_eq_ok_iff.1 hr
    obtain ⟨_, messages, hr⟩ := Reading.bind_eq_ok_iff.1 hr
    obtain ⟨_, connections, hr⟩ := Reading.bind_eq_ok_iff.1 hr
    obtain ⟨_, vocabulary, hr⟩ := Reading.bind_eq_ok_iff.1 hr
    obtain ⟨_, positions, hr⟩ := Reading.bind_eq_ok_iff.1 hr
    cases hr
    exact ⟨responses, processes, objects, locations, messages, connections, vocabulary,
      positions, rfl⟩
  · intro hr
    refine Reading.bind_eq_ok_iff.2 ⟨_, hr.responses, ?_⟩
    refine Reading.bind_eq_ok_iff.2 ⟨_, hr.processes, ?_⟩
    refine Reading.bind_eq_ok_iff.2 ⟨_, hr.objects, ?_⟩
    refine Reading.bind_eq_ok_iff.2 ⟨_, hr.locations, ?_⟩
    refine Reading.bind_eq_ok_iff.2 ⟨_, hr.messages, ?_⟩
    refine Reading.bind_eq_ok_iff.2 ⟨_, hr.connections, ?_⟩
    refine Reading.bind_eq_ok_iff.2 ⟨_, hr.vocabulary, ?_⟩
    refine Reading.bind_eq_ok_iff.2 ⟨_, hr.positions, ?_⟩
    rw [← hr.carried]
    rfl

theorem result_supported (hversion : o.version = 0) :
    (Reading.settled o.supported).result = .ok Version.v0 := by
  simp [Reading.settled, Options.supported, Version.ofNumber, hversion]

theorem result_supported_of_ne (hversion : o.version ≠ 0) :
    (Reading.settled o.supported).result = .error (.unsupportedVersion o.version) := by
  simp [Reading.settled, Options.supported, Version.ofNumber, hversion]

theorem decode_eq_ok_iff :
    (decode m o).result = .ok d ↔
      o.version = 0 ∧ ∃ anchor h,
        IsLeast {p | o.searchStart ≤ p ∧ Signature.Anchored m p} anchor ∧
        (Header.resolve m anchor).result = .ok h ∧ ReadsTo m Version.v0.arguments h d := by
  constructor
  · intro hd
    obtain ⟨version, hversion, hd⟩ := Reading.bind_eq_ok_iff.1 hd
    by_cases hzero : o.version = 0
    · rw [result_supported hzero] at hversion
      cases hversion
      obtain ⟨anchor, hanchor, hd⟩ := Reading.bind_eq_ok_iff.1 hd
      obtain ⟨h, hresolve, hd⟩ := Reading.bind_eq_ok_iff.1 hd
      obtain ⟨_, -, hd⟩ := Reading.bind_eq_ok_iff.1 hd
      obtain ⟨d', htables, hd⟩ := Reading.bind_eq_ok_iff.1 hd
      obtain ⟨_, -, hd⟩ := Reading.bind_eq_ok_iff.1 hd
      cases hd
      exact ⟨hzero, anchor, h, Signature.locate_eq_ok_iff.1 hanchor, hresolve,
        readTables_eq_ok_iff.1 htables⟩
    · rw [result_supported_of_ne hzero] at hversion
      cases hversion
  · rintro ⟨hzero, anchor, h, hanchor, hresolve, htables⟩
    refine Reading.bind_eq_ok_iff.2 ⟨_, result_supported hzero, ?_⟩
    refine Reading.bind_eq_ok_iff.2 ⟨_, Signature.locate_eq_ok_iff.2 hanchor, ?_⟩
    refine Reading.bind_eq_ok_iff.2 ⟨_, hresolve, ?_⟩
    refine Reading.bind_eq_ok_iff.2 ⟨(), rfl, ?_⟩
    refine Reading.bind_eq_ok_iff.2 ⟨_, readTables_eq_ok_iff.2 htables, ?_⟩
    exact Reading.bind_eq_ok_iff.2 ⟨(), rfl, rfl⟩

end Database
end Adventure
