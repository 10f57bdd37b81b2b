/-
# The character set

A stored byte `b` stands for the code `255 - b`.  Codes from 32 up are
visible.  Most of them are the Latin-1 character of the same number; the
exceptions are listed here.  Characters that mean something in markup, and
the two signs that the machine keeps at 96 and 127, are written as entities,
and the block from 144 up, which the machine keeps for user-defined graphics
and BASIC keywords, holds accented letters and words.

Ink colours are the eight of the machine, in its order.
-/

namespace Adventure
namespace Charset

/-- The code of a stored byte. -/
def code (stored : UInt8) : UInt8 :=
  255 - stored

theorem code_eq (b : UInt8) : code b = 255 - b := rfl

/-- Bytes and codes come in pairs that add up to 255. -/
theorem code_eq_iff {b c : UInt8} : code b = c ↔ b = 255 - c := by
  rw [code_eq]
  grind

@[simp] theorem code_sub (c : UInt8) : code (255 - c) = c :=
  code_eq_iff.2 rfl

/-- The character with the number of a code. -/
def latin (c : UInt8) : Char :=
  Char.ofNat c.toNat

/-- `letter` with `mark` printed over it from a distance `left`. -/
def overprint (letter mark how left : String) : String :=
  "<span style=\"position:relative\">" ++ letter ++ "<span style=\"position: " ++ how ++
    "; left: " ++ left ++ "\">" ++ mark ++ "</span></span>"

/-- The first code of the graphics block. -/
def blockStart : Nat := 144

/-- What the codes from `blockStart` up stand for, in order. -/
def block : List String :=
  ["Ž", overprint "T" "ž" "absolute" "0", "Č", "đ", "š", "č", "SI", "", "ž", "Ž", "NC", "LA",
   overprint "M" "K" "relative" "-0.4em", "IR", "ö", "ß", "ž", "ä", "Š", "ć", "ü", "RND",
   "INKEY$", "PI", "FN ", "POINT "]

/-- The codes below the block that stand for an entity. -/
def entities : List (UInt8 × String) :=
  [(38, "&amp;"), (60, "&lt;"), (62, "&gt;"), (96, "&pound;"), (127, "&copy;")]

/-- What a code stands for when that is not the character of its number. -/
def substitution (c : UInt8) : Option String :=
  if c.toNat < blockStart then entities.lookup c else block[c.toNat - blockStart]?

/-- The ink colours, in the machine's order. -/
def inks : List String :=
  ["#000", "#00f", "#f00", "#f0f", "#0f0", "#0ff", "#ff0", "#fff"]

/-- The ink of a number; numbers from 8 up have none. -/
def ink? (n : UInt8) : Option String :=
  inks[n.toNat]?

/-- The visible form of a code. -/
def glyph (c : UInt8) : String :=
  (substitution c).getD (String.singleton (latin c))

end Charset
end Adventure
