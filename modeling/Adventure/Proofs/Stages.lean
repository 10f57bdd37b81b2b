/-
# The stages of a decode

Behind its anchor a decode has nine stages, the header and eight tables in
the order of `Database.stages`.  `Database.stageOutcome` is one of them by itself,
whatever becomes of the others.  A decode is its stages one after the other
(`outcome_decode`), and so it fails as the first stage that does.

The main statement is `decode_taxonomy`: which faults a decode has, when it
has them, whose fault they are and how far outside the snapshot they lie.
-/
import Adventure.Proofs.Decode
import Adventure.Proofs.Offset
import Mathlib.Algebra.Group.Nat.Defs

namespace Adventure

/-- What became of a reading, without its value. -/
def Reading.outcome {α : Type} (r : Reading α) : Except Fault Unit :=
  r.result.map fun _ => ()

namespace Reading

variable {α β : Type} {r : Reading α} {f : Fault}

theorem outcome_bind {next : α → Reading β} :
    (r >>= next).outcome = r.result >>= fun a => (next a).outcome := by
  rw [outcome, result_bind]
  cases r.result <;> rfl

/-- What follows may end in the same way whatever the value is. -/
theorem outcome_bind_of_forall {next : α → Reading β} {rest : Except Fault Unit}
    (h : ∀ a, (next a).outcome = rest) :
    (r >>= next).outcome = (r.outcome >>= fun _ => rest) := by
  rw [outcome_bind, outcome]
  cases r.result with
  | error g => rfl
  | ok a => exact h a

theorem outcome_eq_error_iff : r.outcome = .error f ↔ r.result = .error f := by
  unfold outcome
  cases r.result with
  | error g => simp [Except.map]
  | ok a => simp [Except.map]

end Reading

/-! ## Several stages in order -/

/-- A run over a list fails as the first of its elements that does. -/
theorem forM_eq_error_iff {σ : Type} {run : σ → Except Fault Unit} {f : Fault} :
    ∀ {l : List σ}, l.forM run = .error f ↔
      ∃ n s, l[n]? = some s ∧ (∀ t ∈ l.take n, run t = .ok ()) ∧ run s = .error f
  | [] => by
      constructor
      · intro h
        cases h
      · rintro ⟨n, s, h, -⟩
        cases h
  | s :: rest => by
      show (run s >>= fun _ => rest.forM run) = .error f ↔ _
      cases hs : run s with
      | error g =>
          constructor
          · intro h
            cases h
            exact ⟨0, s, rfl, by simp, hs⟩
          · rintro ⟨n, t, ht, hbefore, hf⟩
            cases n with
            | zero =>
                cases ht
                rw [hs] at hf
                cases hf
                rfl
            | succ n =>
                have := hbefore s (List.mem_cons_self ..)
                rw [hs] at this
                cases this
      | ok u =>
          show rest.forM run = .error f ↔ _
          rw [forM_eq_error_iff]
          constructor
          · rintro ⟨n, t, ht, hbefore, hf⟩
            exact ⟨n + 1, t, ht, List.forall_mem_cons.2 ⟨hs, hbefore⟩, hf⟩
          · rintro ⟨n, t, ht, hbefore, hf⟩
            cases n with
            | zero =>
                cases ht
                rw [hs] at hf
                cases hf
            | succ n =>
                exact ⟨n, t, ht, (List.forall_mem_cons.1 hbefore).2, hf⟩

/-! ## The stages -/

namespace Database

variable {m : Snapshot} {o : Options} {anchor : Nat} {f : Fault}

/-- The order in which a decode reads. -/
def stages : List Section :=
  [.header, .responses, .processes, .objects, .locations, .messages, .connections, .vocabulary,
    .positions]

/-- The table of a section, read behind a header by itself. -/
def tableOutcome (m : Snapshot) (h : Header) : Section → Except Fault Unit
  | .header => .ok ()
  | .responses => (Rules.readCommands m .response Version.v0.arguments h.responses).outcome
  | .processes => (Rules.readCommands m .process Version.v0.arguments h.processes).outcome
  | .objects => (Text.readAll m .objects h.objects h.objectCount.toNat).outcome
  | .locations => (Text.readAll m .locations h.locations h.locationCount.toNat).outcome
  | .messages => (Text.readAll m .messages h.messages h.messageCount.toNat).outcome
  | .connections => (Exits.readAll m h.connections h.locationCount.toNat).outcome
  | .vocabulary => (Vocabulary.read m h.vocabulary).outcome
  | .positions => (m.slice .positions h.positions h.objectCount.toNat).outcome

/-- A stage by itself: the header behind the anchor, or one table behind that header. -/
def stageOutcome (m : Snapshot) (anchor : Nat) (part : Section) : Except Fault Unit :=
  (Header.resolve m anchor).result >>= fun h => tableOutcome m h part

/-- The tables of a header are read one after the other. -/
theorem outcome_readTables {h : Header} :
    (readTables m Version.v0.arguments h).outcome = stages.forM (tableOutcome m h) := by
  unfold readTables
  repeat refine Reading.outcome_bind_of_forall fun _ => ?_
  rfl

/-- Behind its anchor a decode is its stages. -/
theorem outcome_decode (hversion : o.version = 0)
    (hanchor : IsLeast {p | o.searchStart ≤ p ∧ Signature.Anchored m p} anchor) :
    (decode m o).outcome = stages.forM (stageOutcome m anchor) := by
  rw [decode, Reading.outcome_bind, result_supported hversion]
  show (Signature.locate m o.searchStart >>= _).outcome = _
  rw [Reading.outcome_bind, Signature.locate_eq_ok_iff.2 hanchor]
  show (Header.resolve m anchor >>= _).outcome = _
  rw [Reading.outcome_bind]
  cases hr : (Header.resolve m anchor).result with
  | error g =>
      have first : stageOutcome m anchor .header = .error g := by
        rw [stageOutcome, hr]
        rfl
      exact (forM_eq_error_iff.2 ⟨0, .header, rfl, by simp, first⟩).symm
  | ok h =>
      have same : stageOutcome m anchor = tableOutcome m h := by
        funext part
        rw [stageOutcome, hr]
        rfl
      rw [same, ← outcome_readTables]
      show (Reading.record _ >>= _).outcome = _
      rw [Reading.outcome_bind]
      show (readTables m _ h >>= _).outcome = _
      rw [Reading.outcome_bind, Reading.outcome]
      cases (readTables m Version.v0.arguments h).result <;> rfl

/-! ## Which faults there are -/

/-- `part` is the first stage that fails, and fails with `f`. -/
def FailsFirst (m : Snapshot) (anchor : Nat) (part : Section) (f : Fault) : Prop :=
  ∃ n, stages[n]? = some part ∧
    (∀ earlier ∈ stages.take n, stageOutcome m anchor earlier = .ok ()) ∧
    stageOutcome m anchor part = .error f

theorem decode_eq_error_iff (hversion : o.version = 0)
    (hanchor : IsLeast {p | o.searchStart ≤ p ∧ Signature.Anchored m p} anchor) :
    (decode m o).result = .error f ↔ ∃ part, FailsFirst m anchor part f := by
  rw [← Reading.outcome_eq_error_iff, outcome_decode hversion hanchor, forM_eq_error_iff]
  exact exists_comm

/-- The fault of a table is its own. -/
theorem table_beyond (hm : m.size < addressLimit) {h : Header} (hshort : h.Short)
    {part : Section} (hf : tableOutcome m h part = .error f) : m.Beyond part f := by
  cases part with
  | header => cases hf
  | responses =>
      have hp : m.Near h.responses := Snapshot.near_of_lt hshort.responses
      exact Rules.readCommands_beyond hp (Reading.outcome_eq_error_iff.1 hf)
  | processes =>
      have hp : m.Near h.processes := Snapshot.near_of_lt hshort.processes
      exact Rules.readCommands_beyond hp (Reading.outcome_eq_error_iff.1 hf)
  | objects =>
      have hp : m.Near h.objects := Snapshot.near_of_lt hshort.objects
      exact Text.readAll_beyond hp (Reading.outcome_eq_error_iff.1 hf)
  | locations =>
      have hp : m.Near h.locations := Snapshot.near_of_lt hshort.locations
      exact Text.readAll_beyond hp (Reading.outcome_eq_error_iff.1 hf)
  | messages =>
      have hp : m.Near h.messages := Snapshot.near_of_lt hshort.messages
      exact Text.readAll_beyond hp (Reading.outcome_eq_error_iff.1 hf)
  | connections =>
      have hp : m.Near h.connections := Snapshot.near_of_lt hshort.connections
      exact Exits.readAll_beyond hp (Reading.outcome_eq_error_iff.1 hf)
  | vocabulary =>
      have hp : m.Near h.vocabulary := Snapshot.near_of_lt hshort.vocabulary
      exact Vocabulary.read_beyond hm hp (Reading.outcome_eq_error_iff.1 hf)
  | positions =>
      have hp : m.Near h.positions := Snapshot.near_of_lt hshort.positions
      have hlimit : h.positions + h.objectCount.toNat < addressLimit := by
        have := hshort.positions
        have := h.objectCount.toNat_lt
        simp only [addressLimit, UInt64.size]
        omega
      exact hp.beyond_of_slice hlimit (Reading.outcome_eq_error_iff.1 hf)

/-- The first stage that fails names itself; only the header may name the
section that a missing cell leads to. -/
theorem FailsFirst.beyond (hm : m.size < addressLimit) (hanchor : Signature.Anchored m anchor)
    {part : Section} (h : FailsFirst m anchor part f) :
    ∃ named, m.Beyond named f ∧
      (named = part ∨ part = .header ∧ Header.Dangling m anchor named f) := by
  obtain ⟨n, hn, hbefore, hf⟩ := h
  cases hr : (Header.resolve m anchor).result with
  | error g =>
      have all : ∀ s, stageOutcome m anchor s = .error g := by
        intro s
        rw [stageOutcome, hr]
        rfl
      cases n with
      | zero =>
          cases hn
          rw [all] at hf
          cases hf
          obtain ⟨named, hbeyond, hnamed⟩ := Header.resolve_beyond hanchor hr
          refine ⟨named, hbeyond, ?_⟩
          rcases hnamed with rfl | hdangling
          · exact .inl rfl
          · exact .inr ⟨rfl, hdangling⟩
      | succ n =>
          have := hbefore .header (List.mem_cons_self ..)
          rw [all] at this
          cases this
  | ok header =>
      have hf : tableOutcome m header part = .error f := by
        rw [stageOutcome, hr] at hf
        exact hf
      exact ⟨part, table_beyond hm (Header.short_of_resolve hr) hf, .inl rfl⟩

/-- All faults of a decode. -/
structure Taxonomy (m : Snapshot) (o : Options) : Prop where
  /-- A version that is not known is refused, whatever the snapshot. -/
  version : ∀ v, (decode m o).result = .error (.unsupportedVersion v) ↔ o.version = v ∧ v ≠ 0
  /-- In a known version the marker may be missing. -/
  marker : o.version = 0 → ∀ start, (decode m o).result = .error (.signatureNotFound start) ↔
    start = o.searchStart ∧ ∀ p, o.searchStart ≤ p → ¬ Signature.Anchored m p
  /-- Behind a marker there is a database, or a first stage that fails. -/
  failing : o.version = 0 → (∃ p, o.searchStart ≤ p ∧ Signature.Anchored m p) →
    ∃ anchor, IsLeast {p | o.searchStart ≤ p ∧ Signature.Anchored m p} anchor ∧
      (∀ f, (decode m o).result = .error f ↔ ∃ part, FailsFirst m anchor part f) ∧
      ∀ part f, FailsFirst m anchor part f →
        ∃ named offset, f = .malformed named offset ∧ m.size ≤ offset ∧
          offset ≤ max (m.size + 4) 65539 ∧
          (named = part ∨ part = .header ∧ Header.Dangling m anchor named f)
  /-- The options have been read before. -/
  options : (decode m o).result ≠ .error .optionsRejected

theorem decode_of_version_ne (hversion : o.version ≠ 0) :
    (decode m o).result = .error (.unsupportedVersion o.version) := by
  rw [decode, Reading.result_bind, result_supported_of_ne hversion]
  rfl

theorem decode_of_unmarked (hversion : o.version = 0)
    (hmarker : ∀ p, o.searchStart ≤ p → ¬ Signature.Anchored m p) :
    (decode m o).result = .error (.signatureNotFound o.searchStart) := by
  rw [decode, Reading.result_bind, result_supported hversion]
  show (Signature.locate m o.searchStart >>= _).result = _
  rw [Reading.result_bind, Signature.locate_eq_error_iff.2 ⟨rfl, hmarker⟩]
  rfl

theorem exists_least (h : ∃ p, o.searchStart ≤ p ∧ Signature.Anchored m p) :
    ∃ anchor, IsLeast {p | o.searchStart ≤ p ∧ Signature.Anchored m p} anchor := by
  cases hl : (Signature.locate m o.searchStart).result with
  | ok anchor => exact ⟨anchor, Signature.locate_eq_ok_iff.1 hl⟩
  | error g =>
      obtain ⟨p, hp, ha⟩ := h
      exact absurd ha ((Signature.locate_eq_error_iff.1 hl).2 p hp)

/-- A decode fails for its version, for its marker, or in a section. -/
theorem fault_cases (hm : m.size < addressLimit) (h : (decode m o).result = .error f) :
    (o.version ≠ 0 ∧ f = .unsupportedVersion o.version) ∨
      (o.version = 0 ∧ (∀ p, o.searchStart ≤ p → ¬ Signature.Anchored m p) ∧
        f = .signatureNotFound o.searchStart) ∨
      ∃ part offset, f = .malformed part offset := by
  by_cases hversion : o.version = 0
  · by_cases hmarker : ∃ p, o.searchStart ≤ p ∧ Signature.Anchored m p
    · obtain ⟨anchor, hanchor⟩ := exists_least hmarker
      obtain ⟨part, hpart⟩ := (decode_eq_error_iff hversion hanchor).1 h
      obtain ⟨named, ⟨offset, hf, -⟩, -⟩ := hpart.beyond hm hanchor.1.2
      exact .inr (.inr ⟨named, offset, hf⟩)
    · have hnone : ∀ p, o.searchStart ≤ p → ¬ Signature.Anchored m p :=
        fun p hp ha => hmarker ⟨p, hp, ha⟩
      rw [decode_of_unmarked hversion hnone] at h
      cases h
      exact .inr (.inl ⟨hversion, hnone, rfl⟩)
  · rw [decode_of_version_ne hversion] at h
    cases h
    exact .inl ⟨hversion, rfl⟩

/-- The faults of a decode are those of its taxonomy. -/
theorem decode_taxonomy (m : Snapshot) (o : Options) (hm : m.size ≤ 2 ^ 63 - 1) :
    Taxonomy m o := by
  have hlimit : m.size < addressLimit := by
    simp only [addressLimit, UInt64.size]
    omega
  refine ⟨?version, ?marker, ?failing, ?options⟩
  case version =>
    intro v
    constructor
    · intro h
      rcases fault_cases hlimit h with ⟨hversion, hf⟩ | ⟨-, -, hf⟩ | ⟨_, _, hf⟩
      · cases hf
        exact ⟨rfl, hversion⟩
      · cases hf
      · cases hf
    · rintro ⟨rfl, hv⟩
      exact decode_of_version_ne hv
  case marker =>
    intro hversion start
    constructor
    · intro h
      rcases fault_cases hlimit h with ⟨-, hf⟩ | ⟨-, hnone, hf⟩ | ⟨_, _, hf⟩
      · cases hf
      · cases hf
        exact ⟨rfl, hnone⟩
      · cases hf
    · rintro ⟨rfl, hnone⟩
      exact decode_of_unmarked hversion hnone
  case failing =>
    intro hversion hmarker
    obtain ⟨anchor, hanchor⟩ := exists_least hmarker
    refine ⟨anchor, hanchor, fun f => decode_eq_error_iff hversion hanchor, ?_⟩
    intro part f hpart
    obtain ⟨named, ⟨offset, hf, hsize, hoffset⟩, hnamed⟩ := hpart.beyond hlimit hanchor.1.2
    exact ⟨named, offset, hf, hsize, hoffset, hnamed⟩
  case options =>
    intro h
    rcases fault_cases hlimit h with ⟨-, hf⟩ | ⟨-, -, hf⟩ | ⟨_, _, hf⟩
    · cases hf
    · cases hf
    · cases hf

/-- A header that is cut off behind a word that names the last address. -/
def cutImage : Snapshot :=
  ⟨#[0, 0, 17, 0, 18, 0, 19, 0, 20, 0, 21, 0, 0, 1, 1, 1, 1, 0, 0, 0, 0, 255, 255]⟩

theorem decode_taxonomy_cutImage :
    cutImage.size ≤ 2 ^ 63 - 1 ∧ Taxonomy cutImage ⟨0, 0⟩ ∧
      (decode cutImage ⟨0, 0⟩).result = .error (.malformed .objects 65535) := by
  have hsize : cutImage.size ≤ 2 ^ 63 - 1 := by decide
  have taxonomy := decode_taxonomy cutImage ⟨0, 0⟩ hsize
  have hzero : IsLeast {p | 0 ≤ p ∧ Signature.Anchored cutImage p} 0 :=
    ⟨⟨Nat.le_refl 0, by decide, Signature.marks_iff.1 (by decide)⟩, fun _ h => h.1⟩
  obtain ⟨anchor, hanchor, hfails, -⟩ := taxonomy.failing rfl ⟨0, hzero.1⟩
  cases hanchor.unique hzero
  exact ⟨hsize, taxonomy, (hfails _).2 ⟨.header, 0, rfl, by simp, rfl⟩⟩

end Database
end Adventure
