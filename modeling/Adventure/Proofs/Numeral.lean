/-
# Written numbers can be read back

A decimal is a run of digits that determines its number, so it can be told
from whatever does not begin with a digit; in a column, the spaces in front of
it do not change that.  No number is written with a line feed.
-/
import Adventure.Numeral
import Adventure.Proofs.Delimited

namespace Adventure
namespace Numeral

/-- The decimal of a number, character by character. -/
def decimal (n : Nat) : List Char :=
  (toString n).toList

theorem decimal_eq (n : Nat) : decimal n = Nat.toDigits 10 n :=
  Nat.toList_repr

theorem isDigit_of_mem_decimal {n : Nat} {c : Char} (h : c ∈ decimal n) : c.isDigit = true := by
  rw [decimal_eq] at h
  exact Nat.isDigit_of_mem_toDigits (by decide) (by decide) h

theorem decimal_ne_nil (n : Nat) : decimal n ≠ [] := by
  rw [decimal_eq]
  exact Nat.toDigits_ne_nil

theorem decimal_injective : Function.Injective decimal := by
  intro n n' h
  rw [decimal_eq, decimal_eq] at h
  rw [← Nat.ofDigitChars_toDigits (b := 10) (n := n) (by decide) (by decide), h]
  exact Nat.ofDigitChars_toDigits (by decide) (by decide)

/-- A decimal ends where there is no digit. -/
theorem delimits_decimal : Delimits decimal (Avoids fun c => c.isDigit = true) :=
  delimits_run decimal_injective fun _ _ => isDigit_of_mem_decimal

/-- A decimal begins with nothing but a digit. -/
theorem avoids_decimal {P : Char → Prop} (hP : ∀ c, P c → c.isDigit = false) (n : Nat)
    (u : List Char) : Avoids P (decimal n ++ u) := by
  refine avoids_append (decimal_ne_nil n) fun c hc hp => ?_
  have hdigit := isDigit_of_mem_decimal hc
  rw [hP c hp] at hdigit
  cases hdigit

theorem toList_column (width n : Nat) :
    (column width n).toList = List.replicate (width - (toString n).length) ' ' ++ decimal n := by
  simp [column, padLeft, decimal]

/-- A decimal in a column ends where there is no digit. -/
theorem delimits_column (width : Nat) :
    Delimits (fun n => (column width n).toList) (Avoids fun c => c.isDigit = true) := by
  intro n n' u v hu hv heq
  simp only [toList_column, List.append_assoc] at heq
  have spaces : ∀ k, ∀ c ∈ List.replicate k ' ', c = ' ' := fun _ _ => List.eq_of_mem_replicate
  have digits : ∀ n u, Avoids (· = ' ') (decimal n ++ u) :=
    avoids_decimal fun c hc => hc ▸ rfl
  obtain ⟨-, hrest⟩ := run_append_inj (spaces _) (spaces _) (digits n u) (digits n' v) heq
  exact delimits_decimal hu hv hrest

/-! ## Lines -/

theorem newline_notMem_decimal (n : Nat) : '\n' ∉ decimal n :=
  fun h => absurd (isDigit_of_mem_decimal h) (by decide)

theorem newline_notMem_column (width n : Nat) : '\n' ∉ (column width n).toList := by
  rw [toList_column, List.mem_append, not_or]
  exact ⟨fun h => absurd (List.eq_of_mem_replicate h) (by decide), newline_notMem_decimal n⟩

end Numeral
end Adventure
