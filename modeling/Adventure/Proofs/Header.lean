/-
# The marker and the header

`Signature.Anchored m p` is what it means that the marker stands behind `p`;
the search finds the least such place from its start on, and fails exactly
when there is none.  The header behind any anchor is read back where it is
written: its counts, four addresses of tables, and four addresses of cells
that hold the addresses of tables, wherever those cells are.
-/
import Adventure.Header.Resolve
import Adventure.Proofs.Held
import Adventure.Signature
import Mathlib.Order.Bounds.Basic

namespace Adventure

variable {m : Snapshot}

/-! ## The marker -/

namespace Signature

/-- The five bytes of the marker stand behind `p`, inside the snapshot. -/
def Anchored (m : Snapshot) (p : Nat) : Prop :=
  p + 10 < m.size ∧ ∀ i, 1 ≤ i → i ≤ 5 → m.get? (p + 2 * i) = some (UInt8.ofNat (16 + i))

theorem marks_iff {p : Nat} :
    marks m p = true ↔ ∀ i, 1 ≤ i → i ≤ 5 → m.get? (p + 2 * i) = some (UInt8.ofNat (16 + i)) := by
  simp only [marks, List.all_eq_true, beq_iff_eq]
  constructor
  · intro h i hi hi5
    exact h i (by simp; omega)
  · intro h i hi
    simp at hi
    exact h i (by omega) (by omega)

/-- What a search from `p` on finds: the least anchor, if there is one. -/
theorem search_spec (m : Snapshot) (p reach : Nat) :
    match (search m p reach).1 with
    | some anchor => IsLeast {q | p ≤ q ∧ Anchored m q} anchor
    | none => ∀ q, p ≤ q → ¬ Anchored m q := by
  fun_induction search m p reach with
  | case1 p reach _ far hspan hmarks =>
      refine ⟨⟨Nat.le_refl p, hspan, marks_iff.1 hmarks⟩, ?_⟩
      rintro q ⟨hq, -⟩
      exact hq
  | case2 p reach _ far hspan hmarks ih =>
      have here : ¬ Anchored m p := fun h => hmarks (marks_iff.2 h.2)
      have behind : ∀ q, p ≤ q → Anchored m q → p + 1 ≤ q := by
        intro q hq ha
        refine Nat.lt_of_le_of_ne hq ?_
        rintro rfl
        exact here ha
      revert ih
      cases (search m (p + 1) far).1 with
      | none =>
          intro ih q hq ha
          exact ih q (behind q hq ha) ha
      | some anchor =>
          intro ih
          refine ⟨⟨Nat.le_of_succ_le ih.1.1, ih.1.2⟩, ?_⟩
          rintro q ⟨hq, ha⟩
          exact ih.2 ⟨behind q hq ha, ha⟩
  | case3 p reach _ far hspan =>
      rintro q hq ⟨h, -⟩
      have : p + span < m.size := Nat.lt_of_le_of_lt (Nat.add_le_add_right hq span) h
      exact hspan this
  | case4 p reach hsize =>
      rintro q hq ⟨h, -⟩
      omega

/-- The search succeeds with the least anchor from its start on. -/
theorem locate_eq_ok_iff {start anchor : Nat} :
    (locate m start).result = .ok anchor ↔
      IsLeast {p | start ≤ p ∧ Anchored m p} anchor := by
  have spec := search_spec m start 0
  unfold locate
  revert spec
  rcases search m start 0 with ⟨_ | found, reach⟩
  · intro spec
    constructor
    · intro h
      cases h
    · intro h
      exact absurd h.1.2 (spec anchor h.1.1)
  · intro spec
    constructor
    · intro h
      cases h
      exact spec
    · intro h
      rw [h.unique spec]

/-- The search fails exactly when there is no anchor, and says where it began. -/
theorem locate_eq_error_iff {start : Nat} {f : Fault} :
    (locate m start).result = .error f ↔
      f = .signatureNotFound start ∧ ∀ p, start ≤ p → ¬ Anchored m p := by
  have spec := search_spec m start 0
  unfold locate
  revert spec
  rcases search m start 0 with ⟨_ | found, reach⟩
  · intro spec
    constructor
    · intro h
      cases h
      exact ⟨rfl, spec⟩
    · rintro ⟨rfl, -⟩
      rfl
  · intro spec
    constructor
    · intro h
      cases h
    · rintro ⟨-, h⟩
      exact absurd spec.1.2 (h found spec.1.1)

end Signature

/-! ## The header -/

namespace Header

/-- Each field of a header is what its byte, its word or its cell says. -/
structure ResolvesTo (m : Snapshot) (anchor : Nat) (h : Header) : Prop where
  carried : m.get? (anchor + distance) = some h.carried
  objectCount : m.get? (anchor + distance + 1) = some h.objectCount
  locationCount : m.get? (anchor + distance + 2) = some h.locationCount
  messageCount : m.get? (anchor + distance + 3) = some h.messageCount
  responses : (field m (anchor + distance) 0).result = .ok h.responses
  processes : (field m (anchor + distance) 1).result = .ok h.processes
  objects : (throughCell m (anchor + distance) 2 .objects).result = .ok h.objects
  locations : (throughCell m (anchor + distance) 3 .locations).result = .ok h.locations
  messages : (throughCell m (anchor + distance) 4 .messages).result = .ok h.messages
  connections : (throughCell m (anchor + distance) 5 .connections).result = .ok h.connections
  vocabulary : (field m (anchor + distance) 6).result = .ok h.vocabulary
  positions : (field m (anchor + distance) 7).result = .ok h.positions
  anchor : h.anchor = anchor

theorem resolve_eq_ok_iff {anchor : Nat} {h : Header} :
    (resolve m anchor).result = .ok h ↔ ResolvesTo m anchor h := by
  constructor
  · intro hr
    obtain ⟨_, carried, hr⟩ := Reading.bind_eq_ok_iff.1 hr
    obtain ⟨_, objectCount, hr⟩ := Reading.bind_eq_ok_iff.1 hr
    obtain ⟨_, locationCount, hr⟩ := Reading.bind_eq_ok_iff.1 hr
    obtain ⟨_, messageCount, hr⟩ := Reading.bind_eq_ok_iff.1 hr
    obtain ⟨_, responses, hr⟩ := Reading.bind_eq_ok_iff.1 hr
    obtain ⟨_, processes, hr⟩ := Reading.bind_eq_ok_iff.1 hr
    obtain ⟨_, objects, hr⟩ := Reading.bind_eq_ok_iff.1 hr
    obtain ⟨_, locations, hr⟩ := Reading.bind_eq_ok_iff.1 hr
    obtain ⟨_, messages, hr⟩ := Reading.bind_eq_ok_iff.1 hr
    obtain ⟨_, connections, hr⟩ := Reading.bind_eq_ok_iff.1 hr
    obtain ⟨_, vocabulary, hr⟩ := Reading.bind_eq_ok_iff.1 hr
    obtain ⟨_, positions, hr⟩ := Reading.bind_eq_ok_iff.1 hr
    cases hr
    exact
      { carried := Snapshot.byteAt_eq_ok_iff.1 carried
        objectCount := Snapshot.byteAt_eq_ok_iff.1 objectCount
        locationCount := Snapshot.byteAt_eq_ok_iff.1 locationCount
        messageCount := Snapshot.byteAt_eq_ok_iff.1 messageCount
        responses, processes, objects, locations, messages, connections, vocabulary, positions
        anchor := rfl }
  · intro hr
    refine Reading.bind_eq_ok_iff.2 ⟨_, Snapshot.byteAt_eq_ok_iff.2 hr.carried, ?_⟩
    refine Reading.bind_eq_ok_iff.2 ⟨_, Snapshot.byteAt_eq_ok_iff.2 hr.objectCount, ?_⟩
    refine Reading.bind_eq_ok_iff.2 ⟨_, Snapshot.byteAt_eq_ok_iff.2 hr.locationCount, ?_⟩
    refine Reading.bind_eq_ok_iff.2 ⟨_, Snapshot.byteAt_eq_ok_iff.2 hr.messageCount, ?_⟩
    refine Reading.bind_eq_ok_iff.2 ⟨_, hr.responses, ?_⟩
    refine Reading.bind_eq_ok_iff.2 ⟨_, hr.processes, ?_⟩
    refine Reading.bind_eq_ok_iff.2 ⟨_, hr.objects, ?_⟩
    refine Reading.bind_eq_ok_iff.2 ⟨_, hr.locations, ?_⟩
    refine Reading.bind_eq_ok_iff.2 ⟨_, hr.messages, ?_⟩
    refine Reading.bind_eq_ok_iff.2 ⟨_, hr.connections, ?_⟩
    refine Reading.bind_eq_ok_iff.2 ⟨_, hr.vocabulary, ?_⟩
    refine Reading.bind_eq_ok_iff.2 ⟨_, hr.positions, ?_⟩
    rw [← hr.anchor]
    rfl

/-- A header as written: counts, addresses of tables and addresses of cells. -/
structure Stored where
  carried : UInt8
  objectCount : UInt8
  locationCount : UInt8
  messageCount : UInt8
  responses : UInt16
  processes : UInt16
  objectCell : UInt16
  locationCell : UInt16
  messageCell : UInt16
  connectionCell : UInt16
  vocabulary : UInt16
  positions : UInt16

/-- The twenty bytes of a header. -/
def Stored.bytes (s : Stored) : List UInt8 :=
  [s.carried, s.objectCount, s.locationCount, s.messageCount] ++
    [s.responses, s.processes, s.objectCell, s.locationCell, s.messageCell, s.connectionCell,
      s.vocabulary, s.positions].flatMap Snapshot.wordBytes

end Header
end Adventure
