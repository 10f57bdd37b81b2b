/-
# TOML documents

A document is a run of entries and behind it a run of blocks.  A block has a
header, which names a table or, between double brackets, the next element of
an array of tables, and entries of its own.  An entry is a key with a string,
a number, or an array of these.
-/
import Adventure.Toml.Written

namespace Adventure
namespace Toml

/-- A value that has no parts. -/
inductive Scalar where
  | string (s : String)
  | integer (n : Nat)
deriving DecidableEq

/-- The value of an entry. -/
inductive Value where
  | scalar (s : Scalar)
  | array (items : List Scalar)
deriving DecidableEq

/-- A key and its value. -/
structure Entry where
  key : String
  value : Value
deriving DecidableEq

/-- A headed run of entries. -/
structure Block where
  /-- The keys from the root to the table. -/
  path : List String
  /-- Whether the block is an element of an array of tables. -/
  element : Bool
  entries : List Entry
deriving DecidableEq

/-- The entries of the root, and the blocks. -/
structure Document where
  root : List Entry
  blocks : List Block
deriving DecidableEq

/-- The text of a scalar. -/
def Scalar.text : Scalar → String
  | .string s => Toml.string s
  | .integer n => toString n

/-- The text of a value, which has no line feed of its own. -/
def Value.text : Value → String
  | .scalar s => s.text
  | .array items => "[" ++ ", ".intercalate (items.map Scalar.text) ++ "]"

/-- An entry, on a line or, with a string that has lines, on several. -/
def Entry.text (e : Entry) : String :=
  Toml.key e.key ++ " = " ++ e.value.text ++ "\n"

/-- The header of a block. -/
def Block.header (b : Block) : String :=
  let path := ".".intercalate (b.path.map Toml.key)
  if b.element then "[[" ++ path ++ "]]\n" else "[" ++ path ++ "]\n"

/-- Entries one behind the other. -/
def entriesText (entries : List Entry) : String :=
  entries.foldl (fun text e => text ++ e.text) ""

/-- A block behind an empty line. -/
def Block.text (b : Block) : String :=
  "\n" ++ b.header ++ entriesText b.entries

/-- The text of a document. -/
def Document.text (d : Document) : String :=
  d.blocks.foldl (fun text b => text ++ b.text) (entriesText d.root)

end Toml
end Adventure
