/-
# White space

The white space of Unicode (the property `White_Space`) and the trimming of
a text at both ends.  Spaces without width, such as U+200B and U+FEFF, and
the separators U+001C to U+001F are not white space.
-/

namespace Adventure
namespace Blank

/-- The ranges of white space, first and last code point. -/
def ranges : List (Nat × Nat) :=
  [(0x0009, 0x000d), (0x0020, 0x0020), (0x0085, 0x0085), (0x00a0, 0x00a0), (0x1680, 0x1680),
   (0x2000, 0x200a), (0x2028, 0x2029), (0x202f, 0x202f), (0x205f, 0x205f), (0x3000, 0x3000)]

/-- Whether a character is white space. -/
def isBlank (c : Char) : Bool :=
  ranges.any fun range => range.1 ≤ c.toNat && c.toNat ≤ range.2

/-- Characters without the white space at either end. -/
def trimList (cs : List Char) : List Char :=
  ((cs.dropWhile isBlank).reverse.dropWhile isBlank).reverse

/-- A text without the white space at either end. -/
def trim (s : String) : String :=
  String.ofList (trimList s.toList)

end Blank
end Adventure
