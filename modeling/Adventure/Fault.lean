/-
# Why a decode fails

A decode has four ways to fail, and `Fault` has one constructor for each.
The wording of each is in `Fault.message` and nowhere else; a reader of the
library can tell the causes apart without looking at text.
-/
import Adventure.Numeral
import Adventure.Section

namespace Adventure

/-- The cause of a failed decode. -/
inductive Fault where
  /-- No marker at or after the offset `start`. -/
  | signatureNotFound (start : Nat)
  /-- A read for the section `part` at `offset`, which is outside the snapshot. -/
  | malformed (part : Section) (offset : Nat)
  /-- A database version whose action table is not known. -/
  | unsupportedVersion (version : UInt8)
  /-- An options file that is not TOML or whose settings are out of range. -/
  | optionsRejected
deriving DecidableEq

/-- The text shown for a fault.  That of a rejected options file goes on, behind
a colon, with what its reader says of it; this account is not kept. -/
def Fault.message : Fault → String
  | .signatureNotFound start =>
      "database signature not found at or after offset " ++ Numeral.address start
  | .malformed part offset =>
      "malformed " ++ part.title ++ ": read outside the image at offset " ++
        Numeral.address offset
  | .unsupportedVersion version =>
      "unsupported database version " ++ toString version.toNat
  | .optionsRejected => "invalid decoder options"

end Adventure
