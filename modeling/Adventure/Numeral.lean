/-
# Written numbers

The two ways in which the listings and the log write a number: an address
in hexadecimal, padded with zeros to a least number of digits, and a decimal
pushed to the right of a column.
-/

namespace Adventure
namespace Numeral

/-- `text` with `fill` in front of it until it is `width` characters long;
a longer text stays as it is. -/
def padLeft (fill : Char) (width : Nat) (text : String) : String :=
  String.ofList (List.replicate (width - text.length) fill) ++ text

/-- Lower-case hexadecimal with the mark `0x` and at least `digits` digits. -/
def hex (digits n : Nat) : String :=
  "0x" ++ padLeft '0' digits (String.ofList (Nat.toDigits 16 n))

/-- An address: at least four digits. -/
def address (n : Nat) : String :=
  hex 4 n

/-- A decimal at the right of a column `width` characters wide. -/
def column (width n : Nat) : String :=
  padLeft ' ' width (toString n)

end Numeral
end Adventure
