/-
# Trimmed texts

`Blank.Pads w cs` says that `cs` is `w` with white space around it, and
`Blank.Trims cs w` that `w` is what is left when all of it is taken away.
Trimming finds the one `w` for which that holds (`trimList_eq_iff`), and two
texts are trimmed alike exactly when they are one text in different white
space (`trimList_eq_trimList_iff`).
-/
import Adventure.Unicode.Blank
import Mathlib.Data.List.DropRight
import Mathlib.Data.List.TakeWhile

namespace Adventure
namespace Blank

variable {cs ds w : List Char} {c : Char}

/-! ## What trimming keeps -/

theorem trimList_isPrefix (cs : List Char) : trimList cs <+: cs.dropWhile isBlank :=
  List.rdropWhile_prefix isBlank _

theorem length_trimList_le (cs : List Char) : (trimList cs).length ≤ cs.length :=
  Nat.le_trans (trimList_isPrefix cs).length_le (List.length_dropWhile_le _ cs)

theorem mem_of_mem_trimList (h : c ∈ trimList cs) : c ∈ cs :=
  (List.dropWhile_subset isBlank) ((trimList_isPrefix cs).subset h)

/-- A trimmed text does not begin with white space. -/
theorem isBlank_head_trimList (h : (trimList cs).head? = some c) : isBlank c = false := by
  have hhead : (cs.dropWhile isBlank).head? = some c := by
    obtain ⟨rest, hrest⟩ := trimList_isPrefix cs
    cases ht : trimList cs with
    | nil =>
        rw [ht] at h
        cases h
    | cons b tail =>
        rw [ht] at h
        cases h
        rw [← hrest, ht]
        rfl
  have := List.head?_dropWhile_not isBlank cs
  rwa [hhead] at this

/-- A trimmed text does not end with white space. -/
theorem isBlank_getLast_trimList (h : (trimList cs).getLast? = some c) : isBlank c = false := by
  rw [trimList, List.getLast?_reverse] at h
  have := List.head?_dropWhile_not isBlank (cs.dropWhile isBlank).reverse
  rwa [h] at this

/-! ## What trimming takes away -/

/-- The text `cs` is `w` with white space around it, on both sides, on one or on none. -/
def Pads (w cs : List Char) : Prop :=
  ∃ before behind, cs = before ++ w ++ behind ∧ (∀ c ∈ before, isBlank c = true) ∧
    ∀ c ∈ behind, isBlank c = true

/-- All white space around `cs` taken away, `w` is left. -/
structure Trims (cs w : List Char) : Prop where
  pads : Pads w cs
  head : ∀ c, w.head? = some c → isBlank c = false
  last : ∀ c, w.getLast? = some c → isBlank c = false

/-- What is trimmed was the trimmed text with white space around it. -/
theorem pads_trimList (cs : List Char) : Pads (trimList cs) cs := by
  refine ⟨cs.takeWhile isBlank, (cs.dropWhile isBlank).rtakeWhile isBlank, ?_, ?_, ?_⟩
  · have hright : trimList cs ++ (cs.dropWhile isBlank).rtakeWhile isBlank =
        cs.dropWhile isBlank :=
      List.rdropWhile_append_rtakeWhile
    rw [List.append_assoc, hright, List.takeWhile_append_dropWhile]
  · exact fun c hc => List.mem_takeWhile_imp hc
  · exact fun c hc => List.mem_rtakeWhile_imp hc

/-- White space around a text does not change what it is trimmed to. -/
theorem Pads.trimList_eq (h : Pads w cs) : trimList cs = trimList w := by
  obtain ⟨before, behind, rfl, hbefore, hbehind⟩ := h
  rw [trimList, trimList, List.append_assoc, List.dropWhile_append_of_pos hbefore,
    List.dropWhile_append]
  split
  · -- Nothing but white space in `w`, so that all of `behind` is dropped too.
    rename_i hw
    rw [List.isEmpty_iff.1 hw, List.dropWhile_eq_nil_iff.2 hbehind]
  · have hreverse : ∀ c ∈ behind.reverse, isBlank c = true := by
      intro c hc
      exact hbehind c (List.mem_reverse.1 hc)
    rw [List.reverse_append, List.dropWhile_append_of_pos hreverse]

/-- A text without white space around it is trimmed already. -/
theorem trimList_eq_self (hhead : ∀ c, w.head? = some c → isBlank c = false)
    (hlast : ∀ c, w.getLast? = some c → isBlank c = false) : trimList w = w := by
  cases w with
  | nil => rfl
  | cons c rest =>
      have hfirst : (c :: rest).dropWhile isBlank = c :: rest :=
        List.dropWhile_cons_of_neg (by simp [hhead c rfl])
      have hright : (c :: rest).rdropWhile isBlank = c :: rest := by
        refine List.rdropWhile_eq_self_iff.2 fun hne => ?_
        simp [hlast _ (List.getLast?_eq_some_getLast hne)]
      rw [trimList, hfirst]
      exact hright

/-- Trimming leaves the one text that is left. -/
theorem trimList_eq_iff : trimList cs = w ↔ Trims cs w := by
  constructor
  · rintro rfl
    exact ⟨pads_trimList cs, fun _ => isBlank_head_trimList, fun _ => isBlank_getLast_trimList⟩
  · rintro ⟨hpads, hhead, hlast⟩
    rw [hpads.trimList_eq, trimList_eq_self hhead hlast]

/-- Texts are trimmed alike exactly when they differ in the white space around them only. -/
theorem trimList_eq_trimList_iff : trimList cs = trimList ds ↔ ∃ w, Pads w cs ∧ Pads w ds := by
  constructor
  · intro h
    exact ⟨trimList cs, pads_trimList cs, h ▸ pads_trimList ds⟩
  · rintro ⟨w, hcs, hds⟩
    rw [hcs.trimList_eq, hds.trimList_eq]

end Blank
end Adventure
