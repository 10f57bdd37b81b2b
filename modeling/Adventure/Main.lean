/-
# The program

Reads the files that the arguments name, runs `Dump.run` on what was read,
prints, and exits.  Nothing is decided here: which of the files matter, and
what is printed, is settled by `Dump.run`.
-/
import Adventure.Dump

namespace Adventure
namespace Main

/-- The number of an error, which the system reports with either sign. -/
def numberOf (code : UInt32) : Nat :=
  (if code < 0x80000000 then code else 0 - code).toNat

/-- The fault that an error reports; one that is not the system's has no number. -/
def faultOf : IO.Error → SystemFault
  | .alreadyExists _ code text
  | .interrupted _ code text
  | .noFileOrDirectory _ code text
  | .invalidArgument _ code text
  | .permissionDenied _ code text
  | .resourceExhausted _ code text
  | .inappropriateType _ code text
  | .noSuchThing _ code text
  | .otherError code text
  | .resourceBusy code text
  | .resourceVanished code text
  | .unsupportedOperation code text
  | .hardwareFault code text
  | .unsatisfiedConstraints code text
  | .illegalOperation code text
  | .protocolError code text
  | .timeExpired code text => ⟨numberOf code, text⟩
  | e => ⟨0, toString e⟩

/-- What an open file holds. -/
def readOpened (file : IO.FS.Handle) : IO Opened := do
  try
    let bytes ← file.readBinToEnd
    pure (.file bytes.data)
  catch e =>
    pure (.unreadable (faultOf e))

/-- What stands behind a name on the disk. -/
def readName (name : String) : IO (Except SystemFault Opened) := do
  try
    let file ← IO.FS.Handle.mk name .read
    let opened ← readOpened file
    pure (.ok opened)
  catch e =>
    pure (.error (faultOf e))

/-- The names that a request reads. -/
def namesOf : CommandLine.Request → List String
  | .help => []
  | .dump _ config image => config.toList ++ [image]

/-- The files behind names; every other name is taken to be missing. -/
def readFiles (names : List String) : IO Files := do
  let found ← names.mapM fun name => do
    pure (name, ← readName name)
  pure fun name => (found.lookup name).getD (.error .missing)

end Main
end Adventure

/-- Run on the arguments of the command line. -/
def main (arguments : List String) : IO UInt32 := do
  let names := match Adventure.CommandLine.parse arguments with
    | .ok request => Adventure.Main.namesOf request
    | .error _ => []
  let files ← Adventure.Main.readFiles names
  let outcome := Adventure.Dump.run files arguments
  (← IO.getStdout).putStr outcome.stdout
  (← IO.getStderr).putStr outcome.stderr
  pure (UInt32.ofNat outcome.status)
