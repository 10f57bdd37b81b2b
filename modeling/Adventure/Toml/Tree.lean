/-
# Tables and how they are defined

A document defines its tables piece by piece: by a header, by a dotted key,
or in passing, on the path to another table.  Which of the three decides
what may be added later, so a table remembers its origin.

A header defines a table once; it may take over a table that so far has only
been passed.  A dotted key adds to a table only while that table comes from
dotted keys.  No key is given two values.  Of an array of tables only the
element under way can change, and only that one is kept.

Of the values integers alone are kept: no setting has another kind, and what
a value of another kind is does not matter.
-/

namespace Adventure
namespace Toml

/-- A value that is read. -/
inductive Datum where
  | integer (n : Int)
  | other
deriving DecidableEq

/-- How a table came to be. -/
inductive Origin where
  /-- By a header of its own, or as the root. -/
  | header
  /-- On the path of a header. -/
  | passed
  /-- By dotted keys. -/
  | dotted
deriving DecidableEq

/-- What a key stands for. -/
inductive Node where
  | leaf (d : Datum)
  | table (origin : Origin) (entries : List (String × Node))
  /-- An array of tables; `entries` belong to its last element. -/
  | tables (entries : List (String × Node))

/-- The entries of a table. -/
abbrev Entries := List (String × Node)

namespace Entries

/-- The entries with another node for a key that is there. -/
def replace (es : Entries) (key : String) (node : Node) : Entries :=
  es.map fun e => if e.1 = key then (key, node) else e

/-- Give `key`, in the table that the dotted path leads to, a value. -/
def define (es : Entries) : (path : List String) → (key : String) → Datum → Option Entries
  | [], key, d =>
      match es.lookup key with
      | none => some (es ++ [(key, .leaf d)])
      | some _ => none
  | k :: path, key, d =>
      match es.lookup k with
      | none => do
          let sub ← define [] path key d
          pure (es ++ [(k, .table .dotted sub)])
      | some (.table .dotted sub) => do
          let sub ← define sub path key d
          pure (replace es k (.table .dotted sub))
      | some (.table .passed sub) =>
          if path.isEmpty then none
          else do
            let sub ← define sub path key d
            pure (replace es k (.table .passed sub))
      | some (.table .header _) => none
      | some (.tables sub) =>
          if path.isEmpty then none
          else do
            let sub ← define sub path key d
            pure (replace es k (.tables sub))
      | some (.leaf _) => none

/-- Change the table of a key on the way to another one, making it when it
is not there. -/
def through (es : Entries) (k : String) (change : Entries → Option Entries) : Option Entries :=
  match es.lookup k with
  | none => do
      let sub ← change []
      pure (es ++ [(k, .table .passed sub)])
  | some (.table origin sub) => do
      let sub ← change sub
      pure (replace es k (.table origin sub))
  | some (.tables sub) => do
      let sub ← change sub
      pure (replace es k (.tables sub))
  | some (.leaf _) => none

/-- Open the table of a header. -/
def openTable (es : Entries) : (path : List String) → Option Entries
  | [] => some es
  | [k] =>
      match es.lookup k with
      | none => some (es ++ [(k, .table .header [])])
      | some (.table .passed sub) => some (replace es k (.table .header sub))
      | some _ => none
  | k :: path => through es k fun sub => openTable sub path

/-- Open the next element of the array of tables of a header. -/
def openElement (es : Entries) : (path : List String) → Option Entries
  | [] => some es
  | [k] =>
      match es.lookup k with
      | none => some (es ++ [(k, .tables [])])
      | some (.tables _) => some (replace es k (.tables []))
      | some _ => none
  | k :: path => through es k fun sub => openElement sub path

/-- Give a key a value in the table that a header has opened. -/
def defineIn (es : Entries) (path : List String) (key : String) (d : Datum) :
    (header : List String) → Option Entries
  | [] => define es path key d
  | k :: header => through es k fun sub => defineIn sub path key d header

end Entries
end Toml
end Adventure
