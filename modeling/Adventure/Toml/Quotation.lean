/-
# Reading strings and keys

Basic strings have escapes, literal strings have none, and both have a form
between triple quotes that may hold line ends.  A string between triple
quotes may end in up to two quotes of its own, so from three to five quotes
close it.  A key is bare or a string on one line; a dotted key is several.
-/
import Adventure.Toml.Scan
import Adventure.Toml.Written

namespace Adventure
namespace Toml
namespace Quotation

open Scan

/-- The value of a hexadecimal digit. -/
def hexDigit? (c : Char) : Option Nat :=
  if '0' ≤ c ∧ c ≤ '9' then some (c.toNat - 48)
  else if 'a' ≤ c ∧ c ≤ 'f' then some (c.toNat - 87)
  else if 'A' ≤ c ∧ c ≤ 'F' then some (c.toNat - 55)
  else none

/-- The number of digits in a base, the first the highest. -/
def ofDigits (base : Nat) (digits : List Nat) : Nat :=
  digits.foldl (fun n d => n * base + d) 0

/-- A character by its number, in `count` hexadecimal digits; numbers that
are no character, such as the surrogates, are refused. -/
def numbered (count : Nat) : Scan Char := do
  let digits ← times (satisfying fun c => (hexDigit? c).isSome) count
  let n := ofDigits 16 (digits.filterMap hexDigit?)
  if n.isValidChar then pure (Char.ofNat n) else failure

/-- An escape behind its backslash. -/
def escaped : Scan Char := do
  match (← satisfying fun _ => true) with
  | 'b' => pure '\x08'
  | 't' => pure '\t'
  | 'n' => pure '\n'
  | 'f' => pure '\x0c'
  | 'r' => pure '\r'
  | '"' => pure '"'
  | '\\' => pure '\\'
  | 'u' => numbered 4
  | 'U' => numbered 8
  | _ => failure

/-- Characters that stand for themselves between quotes of the kind `quote`. -/
def isPlain (quote c : Char) : Bool :=
  c != quote && (c == '\t' || (32 ≤ c.toNat && c.toNat != 127))

/-- A character of a basic string. -/
def basicCharacter : Scan Char :=
  satisfying (fun c => isPlain '"' c && c != '\\') <|> do
    char '\\'
    escaped

/-- A basic string on one line. -/
def basic : Scan (List Char) := do
  char '"'
  let body ← many basicCharacter
  char '"'
  pure body

/-- A literal string on one line. -/
def literal : Scan (List Char) := do
  char '\''
  let body ← takeWhile (isPlain '\'')
  char '\''
  pure body

/-! ## Between triple quotes -/

/-- One or two quotes that do not close the string. -/
def looseQuotes (quote : Char) : Scan (List Char) := do
  let run ← such (takeWhile (· == quote)) fun run => 1 ≤ run.length && run.length ≤ 2
  pure run

/-- The closing quotes, and those of the string's own in front of them. -/
def closingQuotes (quote : Char) : Scan (List Char) := do
  let run ← such (takeWhile (· == quote)) fun run => 3 ≤ run.length && run.length ≤ 5
  pure (run.drop 3)

/-- A line end, which is read as a line feed. -/
def lineFeed : Scan (List Char) := do
  newline
  pure ['\n']

/-- A backslash at the end of a line, with all white space that follows. -/
def continuation : Scan (List Char) := do
  char '\\'
  blanks
  newline
  let _ ← many ((do let _ ← satisfying isSpace) <|> newline)
  pure []

/-- A piece of a basic string between triple quotes. -/
def basicPiece : Scan (List Char) :=
  lineFeed <|> continuation <|> looseQuotes '"' <|> do
    let c ← basicCharacter
    pure [c]

/-- A piece of a literal string between triple quotes. -/
def literalPiece : Scan (List Char) :=
  lineFeed <|> looseQuotes '\'' <|> do
    let c ← satisfying (isPlain '\'')
    pure [c]

/-- A string between triple quotes; a newline behind the first three is left out. -/
def block (quote : Char) (piece : Scan (List Char)) : Scan (List Char) := do
  word [quote, quote, quote]
  let _ ← optional newline
  let body ← many piece
  let own ← closingQuotes quote
  pure (body.flatten ++ own)

/-- A string in any of the four forms. -/
def string : Scan (List Char) :=
  block '"' basicPiece <|> block '\'' literalPiece <|> basic <|> literal

/-! ## Keys -/

/-- A key without dots. -/
def simpleKey : Scan String := do
  let cs ← basic <|> literal <|> several (satisfying isBare)
  pure (String.ofList cs)

/-- Keys and arrays nest less deep than this. -/
def depthLimit : Nat := 80

/-- A key with dots, as the keys between them. -/
def dottedKey : Scan (List String) :=
  such (separated (do
      blanks
      let k ← simpleKey
      blanks
      pure k) (char '.'))
    fun path => path.length < depthLimit

end Quotation
end Toml
end Adventure
