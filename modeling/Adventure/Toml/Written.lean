/-
# Strings and keys in TOML

TOML has four forms for a string: between single or triple quotes, basic or
literal.  A basic string has escapes and a literal one has none.  `Form.of`
chooses the first form that needs none, in a fixed order of preference, and
falls back on a basic string with escapes.  A key is written bare when TOML
allows that, and else as a string on one line.
-/

namespace Adventure
namespace Toml

/-! ## What decides the form -/

/-- The length of the longest run of `c`, where `run` is the length of the
run that ends here and `best` the longest before it. -/
def longestRunFrom (c : Char) (run best : Nat) : List Char → Nat
  | [] => max run best
  | d :: rest =>
      if d = c then longestRunFrom c (run + 1) best rest
      else longestRunFrom c 0 (max run best) rest

/-- The length of the longest run of `c`. -/
def longestRun (c : Char) (s : List Char) : Nat :=
  longestRunFrom c 0 0 s

/-- Characters that a literal string cannot hold, line feeds apart. -/
def isControl (c : Char) : Bool :=
  (c.toNat < 32 && c != '\t' && c != '\n') || c.toNat == 127

/-- The four forms of a string. -/
inductive Form where
  | basic
  | literal
  | basicBlock
  | literalBlock
deriving DecidableEq

/-- The first form that writes a string without an escape, or else the basic
form on as many lines as the string has. -/
def Form.of (s : List Char) : Form :=
  let clean := !s.any isControl
  let lines := s.contains '\n'
  let slash := s.contains '\\'
  let doubles := longestRun '"' s
  let singles := longestRun '\'' s
  if clean && !slash && doubles == 0 && !lines then .basic
  else if clean && singles == 0 && !lines then .literal
  else if clean && !slash && doubles ≤ 2 then .basicBlock
  else if clean && singles ≤ 2 then .literalBlock
  else if lines then .basicBlock
  else .basic

/-! ## Basic strings -/

/-- A number below 16 as an upper-case digit. -/
def upperDigit (n : Nat) : Char :=
  Char.ofNat (if n < 10 then 48 + n else 55 + n)

/-- The escape of a character below 256 by its number. -/
def numbered (c : Char) : List Char :=
  ['\\', 'u', '0', '0', upperDigit (c.toNat / 16), upperDigit (c.toNat % 16)]

/-- The escape of a character that a basic string cannot hold, quotes and
line feeds apart. -/
def escape? (c : Char) : Option (List Char) :=
  if c = '\x08' then some ['\\', 'b']
  else if c = '\t' then some ['\\', 't']
  else if c = '\x0c' then some ['\\', 'f']
  else if c = '\r' then some ['\\', 'r']
  else if c = '\\' then some ['\\', '\\']
  else if c = '\n' then none
  else if c.toNat < 32 || c.toNat == 127 then some (numbered c)
  else none

/-- A character of a basic string on one line. -/
def basicCharacter (c : Char) : List Char :=
  if c = '"' then ['\\', '"']
  else if c = '\n' then ['\\', 'n']
  else (escape? c).getD [c]

/-- The characters of a basic string on several lines, after `quotes` quotes
in a row.  Three quotes would close the string, so the third is escaped. -/
def blockCharacters (quotes : Nat) : List Char → List Char
  | [] => []
  | c :: rest =>
      if c = '"' then
        if quotes < 2 then c :: blockCharacters (quotes + 1) rest
        else '\\' :: c :: blockCharacters 0 rest
      else (escape? c).getD [c] ++ blockCharacters 0 rest

/-- A basic string on one line. -/
def basic (s : List Char) : List Char :=
  '"' :: s.flatMap basicCharacter ++ ['"']

/-! ## Strings and keys -/

/-- The line feed behind the opening quotes of a string that has lines. -/
def opening (s : List Char) : List Char :=
  if s.contains '\n' then ['\n'] else []

/-- A string in a form that can hold it. -/
def inForm (s : List Char) : Form → List Char
  | .basic => basic s
  | .literal => '\'' :: s ++ ['\'']
  | .basicBlock => ['"', '"', '"'] ++ opening s ++ blockCharacters 0 s ++ ['"', '"', '"']
  | .literalBlock => ['\'', '\'', '\''] ++ opening s ++ s ++ ['\'', '\'', '\'']

/-- A string as a value. -/
def string (s : String) : String :=
  String.ofList (inForm s.toList (Form.of s.toList))

/-- The characters of a bare key. -/
def isBare (c : Char) : Bool :=
  c.isAlphanum || c == '-' || c == '_'

/-- A key. -/
def key (s : String) : String :=
  let cs := s.toList
  let clean := !cs.any (fun c => isControl c || c == '\n')
  if cs ≠ [] ∧ cs.all isBare then s
  else if clean && !cs.contains '\\' && !cs.contains '"' then String.ofList (basic cs)
  else if clean && !cs.contains '\'' then String.ofList ('\'' :: cs ++ ['\''])
  else String.ofList (basic cs)

end Toml
end Adventure
