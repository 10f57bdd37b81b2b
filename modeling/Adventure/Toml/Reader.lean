/-
# Reading TOML

A document is a run of lines: empty ones, headers, and entries.  `lines`
scans them, and `Entries.ofLines` builds the table of the root from them,
under the rules of `Entries` about what may be defined when.  `read?` does
both, and yields nothing for a text that is not TOML.
-/
import Adventure.Toml.Number
import Adventure.Toml.Tree

namespace Adventure
namespace Toml

open Scan

/-! ## Values -/

/-- An entry: its path, its key, its value. -/
structure Assignment where
  path : List String
  key : String
  datum : Datum

/-- A dotted key, an equals sign and a value. -/
def assignment (value : Scan Datum) : Scan Assignment := do
  let keys ← Quotation.dottedKey
  char '='
  blanks
  let datum ← value
  pure ⟨keys.dropLast, keys.getLastD "", datum⟩

/-- A scanner whose value does not matter. -/
def asOther {α : Type} (scan : Scan α) : Scan Datum := do
  let _ ← scan
  pure .other

/-- A value that has no parts. -/
def plain : Scan Datum :=
  asOther Quotation.string <|> asOther Number.moment <|> asOther Number.float <|>
    (do
      let n ← Number.integer
      pure (.integer n)) <|>
    asOther (word ['t', 'r', 'u', 'e']) <|> asOther (word ['f', 'a', 'l', 's', 'e'])

/-- An array of values, on any number of lines. -/
def array (value : Scan Datum) : Scan Datum := do
  char '['
  let _ ← optional (do
    let _ ← separated (do
      gap
      let _ ← value
      gap) (char ',')
    optional (char ','))
  gap
  char ']'
  pure .other

/-- A table on one line; its keys obey the rules of any table. -/
def inlineTable (value : Scan Datum) : Scan Datum := do
  char '\x7b'
  let entries ← optional (separated (do
    let entry ← assignment value
    blanks
    pure entry) (char ','))
  blanks
  char '\x7d'
  let table : Option Entries :=
    (entries.getD []).foldlM (fun (es : Entries) e => es.define e.path e.key e.datum) []
  if table.isSome then pure .other else failure

/-- A value in which arrays and inline tables nest at most `depth` deep. -/
def valueTo : (depth : Nat) → Scan Datum
  | 0 => plain
  | depth + 1 => plain <|> array (valueTo depth) <|> inlineTable (valueTo depth)

/-- Any value. -/
def value : Scan Datum :=
  valueTo (Quotation.depthLimit - 1)

/-! ## Lines -/

/-- A line of a document. -/
inductive Line where
  | empty
  | table (path : List String)
  | element (path : List String)
  | entry (assignment : Assignment)

/-- A line with nothing but blanks and a comment. -/
def emptyLine : Scan Line := do
  let comment ← optional comment
  match comment with
  | none => newline
  | some () => newline <|> atEnd
  pure .empty

/-- The header of a table. -/
def tableHeader : Scan Line := do
  char '['
  let path ← Quotation.dottedKey
  char ']'
  lineEnd
  pure (.table path)

/-- The header of an element of an array of tables. -/
def elementHeader : Scan Line := do
  word ['[', '[']
  let path ← Quotation.dottedKey
  word [']', ']']
  lineEnd
  pure (.element path)

/-- An entry on lines of its own. -/
def entryLine : Scan Line := do
  let entry ← assignment value
  lineEnd
  pure (.entry entry)

/-- The lines of a document, behind a byte order mark or not. -/
def lines : Scan (List Line) := do
  let _ ← optional (char '\ufeff')
  let found ← many (do
    blanks
    emptyLine <|> elementHeader <|> tableHeader <|> entryLine)
  blanks
  atEnd
  pure found

/-! ## The root -/

/-- The root so far, and the header under which the next entry stands. -/
structure Progress where
  root : Entries
  header : List String

/-- Take up one line. -/
def Progress.line (p : Progress) : Line → Option Progress
  | .empty => some p
  | .table path => do
      let root ← p.root.openTable path
      pure ⟨root, path⟩
  | .element path => do
      let root ← p.root.openElement path
      pure ⟨root, path⟩
  | .entry e => do
      let root ← p.root.defineIn e.path e.key e.datum p.header
      pure ⟨root, p.header⟩

/-- The root of a document. -/
def Entries.ofLines (ls : List Line) : Option Entries := do
  let p ← ls.foldlM Progress.line ⟨[], []⟩
  pure p.root

/-- The root of the document that a text is. -/
def read? (text : String) : Option Entries := do
  let (ls, _) ← lines text.toList
  Entries.ofLines ls

end Toml
end Adventure
