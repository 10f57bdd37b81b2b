/-
# All markers of a snapshot

A search finds the least anchor from its start on.  Nothing in front of that
anchor has a part in it, and so the same one is found from every start up to
there; a search that starts right behind it finds the next one.
`Signature.anchors` is what searching again and again comes to.

The main statement is `locate_least`: which anchor is found, when none is,
and that repeated searches find every anchor once and in order.  Markers may
overlap, since only every other byte counts.
-/
import Adventure.Proofs.Header

namespace Adventure
namespace Signature

variable {m : Snapshot} {start p : Nat}

/-- The marker is the five bytes from 17 to 21 at every other place; that
they are there says that they are inside the snapshot. -/
theorem anchored_iff :
    Anchored m p ↔ m.get? (p + 2) = some 17 ∧ m.get? (p + 4) = some 18 ∧
      m.get? (p + 6) = some 19 ∧ m.get? (p + 8) = some 20 ∧ m.get? (p + 10) = some 21 := by
  constructor
  · rintro ⟨-, h⟩
    exact ⟨h 1 (by omega) (by omega), h 2 (by omega) (by omega), h 3 (by omega) (by omega),
      h 4 (by omega) (by omega), h 5 (by omega) (by omega)⟩
  · rintro ⟨h1, h2, h3, h4, h5⟩
    refine ⟨Snapshot.lt_size_of_get? h5, fun i hi hi5 => ?_⟩
    obtain rfl | rfl | rfl | rfl | rfl : i = 1 ∨ i = 2 ∨ i = 3 ∨ i = 4 ∨ i = 5 := by omega
    · exact h1
    · exact h2
    · exact h3
    · exact h4
    · exact h5

/-- What is in front of an anchor has no part in finding it. -/
theorem locate_eq_of_le {start' anchor : Nat} (h : (locate m start).result = .ok anchor)
    (hstart : start ≤ start') (hanchor : start' ≤ anchor) :
    (locate m start').result = .ok anchor := by
  obtain ⟨⟨-, hmarker⟩, hleast⟩ := locate_eq_ok_iff.1 h
  refine locate_eq_ok_iff.2 ⟨⟨hanchor, hmarker⟩, ?_⟩
  rintro q ⟨hq, hmarked⟩
  exact hleast ⟨Nat.le_trans hstart hq, hmarked⟩

/-! ## Searching again -/

/-- The anchors that are found by searching from `start` on, and then again
behind each one that was found, until there is none. -/
def anchors (m : Snapshot) (start : Nat) : List Nat :=
  match h : (locate m start).result with
  | .ok anchor => anchor :: anchors m (anchor + 1)
  | .error _ => []
termination_by m.size - start
decreasing_by
  obtain ⟨hstart, hspan, -⟩ := (locate_eq_ok_iff.1 h).1
  omega

/-- Every anchor is found, and nothing else. -/
theorem mem_anchors_iff : p ∈ anchors m start ↔ start ≤ p ∧ Anchored m p := by
  fun_induction anchors m start with
  | case1 start anchor h ih =>
      obtain ⟨⟨hstart, hmarker⟩, hleast⟩ := locate_eq_ok_iff.1 h
      rw [List.mem_cons, ih]
      constructor
      · rintro (rfl | ⟨hp, hmarked⟩)
        · exact ⟨hstart, hmarker⟩
        · exact ⟨Nat.le_trans hstart (Nat.le_of_succ_le hp), hmarked⟩
      · rintro ⟨hp, hmarked⟩
        rcases Nat.eq_or_lt_of_le (hleast ⟨hp, hmarked⟩) with rfl | hlt
        · exact .inl rfl
        · exact .inr ⟨hlt, hmarked⟩
  | case2 start f h =>
      have hnone := (locate_eq_error_iff.1 h).2
      simp only [List.not_mem_nil, false_iff, not_and]
      exact hnone p

/-- Each anchor is found behind those that were found before. -/
theorem pairwise_anchors (m : Snapshot) (start : Nat) : (anchors m start).Pairwise (· < ·) := by
  fun_induction anchors m start with
  | case1 start anchor h ih =>
      refine List.pairwise_cons.2 ⟨fun p hp => ?_, ih⟩
      exact (mem_anchors_iff.1 hp).1
  | case2 start f h => exact List.Pairwise.nil

/-- What searching from `start` on comes to. -/
structure Finds (m : Snapshot) (start : Nat) : Prop where
  /-- The marker is five bytes, of which the last may be the last of the snapshot. -/
  marker : ∀ p, Anchored m p ↔ m.get? (p + 2) = some 17 ∧ m.get? (p + 4) = some 18 ∧
    m.get? (p + 6) = some 19 ∧ m.get? (p + 8) = some 20 ∧ m.get? (p + 10) = some 21
  /-- The least anchor is found. -/
  succeeds : ∀ anchor, (locate m start).result = .ok anchor ↔
    IsLeast {p | start ≤ p ∧ Anchored m p} anchor
  /-- The search fails where there is none, and says where it began. -/
  fails : ∀ f, (locate m start).result = .error f ↔
    f = .signatureNotFound start ∧ ∀ p, start ≤ p → ¬ Anchored m p
  /-- The same anchor is found from every start up to it. -/
  later : ∀ anchor, (locate m start).result = .ok anchor →
    ∀ start', start ≤ start' → start' ≤ anchor → (locate m start').result = .ok anchor
  /-- Searching again finds the anchors in order, and so each of them once. -/
  order : (anchors m start).Pairwise (· < ·)
  /-- Searching again finds all anchors, also those whose markers overlap. -/
  all : ∀ p, p ∈ anchors m start ↔ start ≤ p ∧ Anchored m p

/-- The search for the marker is exact, wherever it starts. -/
theorem locate_least (m : Snapshot) (start : Nat) : Finds m start where
  marker := fun _ => anchored_iff
  succeeds := fun _ => locate_eq_ok_iff
  fails := fun _ => locate_eq_error_iff
  later := fun _ h _ hstart hanchor => locate_eq_of_le h hstart hanchor
  order := pairwise_anchors m start
  all := fun _ => mem_anchors_iff

/-- Two markers that overlap, the second one flush against the end. -/
example : anchors ⟨#[0, 0, 17, 17, 18, 18, 19, 19, 20, 20, 21, 21]⟩ 0 = [0, 1] := by
  decide +kernel

end Signature
end Adventure
