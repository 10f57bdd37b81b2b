/-
# Options

What can be chosen about a decode: where the search for the marker starts,
and which version of the database format the snapshot holds.  Both may be
set in a TOML file; what the file does not set keeps its default, and what
else it holds is passed over as long as it is TOML.
-/
import Adventure.Rules.Arity
import Adventure.Signature
import Adventure.Toml.Reader

namespace Adventure

/-- The settings of a decode. -/
structure Options where
  /-- The lowest offset tried as an anchor. -/
  searchStart : Nat := Signature.defaultStart
  /-- The number of the database version. -/
  version : UInt8 := 0
deriving DecidableEq

namespace Options

/-- The settings when nothing is chosen. -/
def default : Options :=
  {}

/-- The version chosen, if it is known. -/
def supported (o : Options) : Except Fault Version :=
  Version.ofNumber o.version

/-- A setting that must be an integer from 0 to `limit`, when it is there. -/
def setting (root : Toml.Entries) (key : String) (limit fallback : Nat) : Option Nat :=
  match root.lookup key with
  | none => some fallback
  | some (.leaf (.integer n)) => if 0 ≤ n ∧ n ≤ limit then some n.toNat else none
  | some _ => none

/-- The settings of a table. -/
def ofEntries (root : Toml.Entries) : Option Options := do
  let start ← setting root "signature_search_start" (Nat.pow 2 63 - 1) Options.default.searchStart
  let version ← setting root "database_version" 255 Options.default.version.toNat
  pure ⟨start, UInt8.ofNat version⟩

/-- The settings of an options file. -/
def ofToml (text : String) : Except Fault Options :=
  match (Toml.read? text).bind ofEntries with
  | some o => .ok o
  | none => .error .optionsRejected

end Options
end Adventure
