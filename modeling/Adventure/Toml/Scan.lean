/-
# Scanning

The reader of TOML is put together from scanners.  A scanner takes
characters from the front of what is left and yields a value, or fails; of
two alternatives the second starts where the first did.  `many` repeats a
scanner until it fails, or succeeds without taking anything, and so it ends.
-/

namespace Adventure
namespace Toml

/-- Takes characters from the front of a list, or fails. -/
abbrev Scan (α : Type) := StateT (List Char) Option α

namespace Scan

variable {α β : Type}

/-- One character that satisfies a test. -/
def satisfying (test : Char → Bool) : Scan Char := fun cs =>
  match cs with
  | [] => none
  | c :: rest => if test c then some (c, rest) else none

/-- A given character. -/
def char (c : Char) : Scan Unit := do
  let _ ← satisfying (· == c)

/-- A given run of characters. -/
def word : List Char → Scan Unit
  | [] => pure ()
  | c :: rest => do
      char c
      word rest

/-- The characters in front of the first that fails a test. -/
def takeWhile (test : Char → Bool) : Scan (List Char) := fun cs =>
  some (cs.takeWhile test, cs.dropWhile test)

/-- The end of the input. -/
def atEnd : Scan Unit := fun cs =>
  if cs.isEmpty then some ((), cs) else none

/-- What `item` yields while it succeeds, behind what it has yielded before. -/
def manyFrom (item : Scan α) (yielded : List α) (cs : List Char) : List α × List Char :=
  match item cs with
  | none => (yielded.reverse, cs)
  | some (a, rest) =>
      if rest.length < cs.length then manyFrom item (a :: yielded) rest
      else (yielded.reverse, cs)
termination_by cs.length

/-- What `item` yields, as often as it succeeds. -/
def many (item : Scan α) : Scan (List α) := fun cs =>
  some (manyFrom item [] cs)

/-- At least one item. -/
def several (item : Scan α) : Scan (List α) := do
  let first ← item
  let more ← many item
  pure (first :: more)

/-- Items with a separator between them, at least one. -/
def separated (item : Scan α) (separator : Scan Unit) : Scan (List α) := do
  let first ← item
  let more ← many (do
    separator
    item)
  pure (first :: more)

/-- `count` items. -/
def times (item : Scan α) : (count : Nat) → Scan (List α)
  | 0 => pure []
  | count + 1 => do
      let first ← item
      let more ← times item count
      pure (first :: more)

/-- A value for which a test must hold. -/
def such (item : Scan α) (test : α → Bool) : Scan α := do
  let a ← item
  if test a then pure a else failure

/-! ## Blanks, line ends and comments -/

/-- Spaces and tabs. -/
def isSpace (c : Char) : Bool :=
  c == ' ' || c == '\t'

/-- Any number of spaces and tabs. -/
def blanks : Scan Unit := do
  let _ ← takeWhile isSpace

/-- A line feed, with or without a carriage return in front. -/
def newline : Scan Unit :=
  char '\n' <|> word ['\r', '\n']

/-- What may stand in a comment: all but controls, the tab excepted. -/
def isCommentCharacter (c : Char) : Bool :=
  c == '\t' || (32 ≤ c.toNat && c.toNat != 127)

/-- A comment, up to the end of its line. -/
def comment : Scan Unit := do
  char '#'
  let _ ← takeWhile isCommentCharacter

/-- The end of a line of text: blanks, a comment, and a newline or the end of the input. -/
def lineEnd : Scan Unit := do
  blanks
  let _ ← optional comment
  newline <|> atEnd

/-- Blanks, newlines and comments in any number. -/
def gap : Scan Unit := do
  let _ ← many ((do let _ ← satisfying isSpace) <|> newline <|> comment)

end Scan
end Toml
end Adventure
