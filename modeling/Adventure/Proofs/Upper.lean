/-
# A text in upper case stays as it is

No code point that upper case leads to has itself another upper case.  The
code points that have one (`changed`) and those that they lead to (`images`)
are too many to be compared in pairs.  Each of the two lists is therefore
taken as one number whose bits are its elements, and these two numbers have
no bit in common.

The main statement is `text_text`.
-/
import Adventure.Unicode.Upper
import Mathlib.Algebra.Group.Nat.Defs
import Mathlib.Data.List.Basic

namespace Adventure
namespace Upper

variable {c x : Nat}

/-! ## Code points -/

/-- The code points of a run, or those that they lead to, from the first one on. -/
def Run.from (r : Run) (first : Nat) : List Nat :=
  (List.range ((r.last - r.first) / r.stride + 1)).map fun i => first + r.stride * i

/-- The code points that have another upper case. -/
def changed : List Nat :=
  runs.flatMap (fun r => r.from r.first) ++ expansions.map Prod.fst

/-- The code points that they lead to. -/
def images : List Nat :=
  runs.flatMap (fun r => r.from r.image) ++ expansions.flatMap Prod.snd

/-- What belongs to a run is some strides behind its first code point. -/
theorem Run.mem_from {r : Run} (h : r.holds c = true) (first : Nat) :
    first + (c - r.first) ∈ r.from first := by
  simp only [Run.holds, Bool.and_eq_true, decide_eq_true_eq, beq_iff_eq] at h
  obtain ⟨⟨-, hlast⟩, hstride⟩ := h
  have hle : (c - r.first) / r.stride ≤ (r.last - r.first) / r.stride :=
    Nat.div_le_div_right (by omega)
  refine List.mem_map.2 ⟨(c - r.first) / r.stride, List.mem_range.2 (by omega), ?_⟩
  rw [Nat.mul_div_cancel' (Nat.dvd_of_mod_eq_zero hstride)]

/-- A code point has no other upper case, or it leads to an image. -/
theorem codePoint_cases (c : Nat) : codePoint c = [c] ∨ ∀ x ∈ codePoint c, x ∈ images := by
  unfold codePoint
  split
  · rename_i image h
    obtain ⟨before, behind, hmem, -⟩ := List.lookup_eq_some_iff.1 h
    refine .inr fun x hx => List.mem_append_right _ (List.mem_flatMap.2 ⟨(c, image), ?_, hx⟩)
    rw [hmem]
    exact List.mem_append_right _ List.mem_cons_self
  · split
    · rename_i r h
      refine .inr fun x hx => List.mem_append_left _ (List.mem_flatMap.2 ?_)
      obtain rfl := List.mem_singleton.1 hx
      have hholds : r.holds c = true := by simpa using List.find?_some h
      exact ⟨r, List.mem_of_find?_eq_some h, Run.mem_from hholds r.image⟩
    · exact .inl rfl

/-- What is not among the changed code points has no other upper case. -/
theorem codePoint_eq_self (h : c ∉ changed) : codePoint c = [c] := by
  unfold codePoint
  split
  · rename_i image hlookup
    obtain ⟨before, behind, hmem, -⟩ := List.lookup_eq_some_iff.1 hlookup
    refine absurd (List.mem_append_right _ (List.mem_map.2 ⟨(c, image), ?_, rfl⟩)) h
    rw [hmem]
    exact List.mem_append_right _ List.mem_cons_self
  · split
    · rename_i r hfind
      have hholds : r.holds c = true := by simpa using List.find?_some hfind
      have hfirst : r.first ≤ c := by
        simp only [Run.holds, Bool.and_eq_true, decide_eq_true_eq] at hholds
        exact hholds.1.1
      have hmem := Run.mem_from hholds r.first
      rw [Nat.add_sub_cancel' hfirst] at hmem
      refine absurd (List.mem_append_left _ (List.mem_flatMap.2 ⟨r, ?_, hmem⟩)) h
      exact List.mem_of_find?_eq_some hfind
    · rfl

/-! ## Sets of code points -/

/-- The number whose bits are the elements of a list. -/
def bits : List Nat → Nat
  | [] => 0
  | x :: rest => 2 ^ x ||| bits rest

theorem testBit_bits {l : List Nat} : (bits l).testBit x = true ↔ x ∈ l := by
  induction l with
  | nil => simp [bits]
  | cons y rest ih =>
      rw [bits, Nat.testBit_or, Nat.testBit_two_pow, Bool.or_eq_true, ih, List.mem_cons,
        decide_eq_true_eq, eq_comm]

theorem bits_changed_images : bits changed &&& bits images = 0 := by
  decide +kernel

/-- No image has another upper case. -/
theorem not_mem_changed (h : x ∈ images) : x ∉ changed := by
  intro hchanged
  have hboth : (bits changed &&& bits images).testBit x = true := by
    rw [Nat.testBit_and, testBit_bits.2 hchanged, testBit_bits.2 h]
    rfl
  rw [bits_changed_images, Nat.zero_testBit] at hboth
  cases hboth

theorem codePoint_codePoint (h : x ∈ codePoint c) : codePoint x = [x] := by
  rcases codePoint_cases c with hself | himages
  · rw [hself, List.mem_singleton] at h
    rw [h, hself]
  · exact codePoint_eq_self (not_mem_changed (himages x h))

/-! ## Texts -/

theorem character_character {a b : Char} (h : b ∈ character a) : character b = [b] := by
  obtain ⟨x, hx, rfl⟩ := List.mem_map.1 h
  by_cases hvalid : x.isValidChar
  · have hx' : (Char.ofNat x).toNat = x := by
      rw [Char.ofNat, dif_pos hvalid]
      rfl
    rw [character, hx', codePoint_codePoint hx]
    rfl
  · -- A number that is no character has become the character 0.
    rw [Char.ofNat, dif_neg hvalid]
    decide +kernel

/-- Upper case twice is upper case once. -/
theorem text_text (s : String) : text (text s) = text s := by
  have stays : ∀ a ∈ s.toList, (character a).flatMap character = character a := by
    intro a _
    rw [List.flatMap_congr fun b hb => character_character hb, List.flatMap_singleton']
  rw [text, text, String.toList_ofList, List.flatMap_assoc, List.flatMap_congr stays]

end Upper
end Adventure
