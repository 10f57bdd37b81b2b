/-
# Dumping a snapshot

The whole program as a function: from the arguments and the files to what is
printed and the exit status.  The options are read before the snapshot, the
snapshot is read whole before it is decoded, and it is decoded whole before
anything of it is printed; so a run prints either what was asked for or one
fault, and never a part of both.
-/
import Adventure.CommandLine
import Adventure.Database.Decode
import Adventure.Database.Export
import Adventure.Database.Listing
import Adventure.Folder

namespace Adventure
namespace Dump

/-- What a run leaves behind. -/
structure Outcome where
  status : Nat
  stdout : String
  stderr : String
deriving DecidableEq

/-- Why a run fails. -/
inductive Failure where
  | arguments (why : CommandLine.Refusal)
  /-- The options file cannot be opened or read. -/
  | configUnreadable (why : SystemFault)
  /-- The options file is not text. -/
  | configNotText
  /-- The options file is refused. -/
  | configRejected
  /-- The snapshot cannot be opened. -/
  | imageUnopened (image : String) (why : SystemFault)
  /-- The snapshot can be opened and not be read. -/
  | imageUnreadable (why : SystemFault)
  | undecodable (image : String) (why : Fault)

/-- What is shown when a snapshot cannot be opened: a missing name and a denial
have wordings of their own. -/
def unopenedMessage (image : String) (why : SystemFault) : String :=
  if why.kind = "NotFound" then "Image file not found: " ++ image
  else if why.kind = "PermissionDenied" then "Permission denied reading image: " ++ image
  else "Cannot open image '" ++ image ++ "': " ++ why.described

/-- The text shown for a failure, behind the word `Error`.  That of a rejected
options file is cut behind its first word: what its reader says of it would
follow between parentheses, and a line feed behind them. -/
def Failure.message : Failure → String
  | .arguments why => why.message ++ "\n"
  | .configUnreadable why => why.fields ++ "\n"
  | .configNotText =>
      FieldForm.record "Error"
        [("kind", "InvalidData"), ("message", "\"stream did not contain valid UTF-8\"")] ++ "\n"
  | .configRejected => "Config"
  | .imageUnopened image why => unopenedMessage image why ++ "\n"
  | .imageUnreadable why => why.fields ++ "\n"
  | .undecodable image why => image ++ ": " ++ why.message ++ "\n"

/-- A run that prints a text. -/
def Outcome.printed (text : String) : Outcome :=
  ⟨0, text, ""⟩

/-- A run that fails. -/
def Outcome.failed (why : Failure) : Outcome :=
  ⟨1, "", "Error: " ++ why.message⟩

/-- The options that a configuration chooses. -/
def readOptions (files : Files) : Option String → Except Failure Options
  | none => .ok Options.default
  | some name =>
      match files name with
      | .error why => .error (.configUnreadable why)
      | .ok (.unreadable why) => .error (.configUnreadable why)
      | .ok (.file bytes) =>
          match String.fromUTF8? ⟨bytes⟩ with
          | none => .error .configNotText
          | some text =>
              match Options.ofToml text with
              | .ok options => .ok options
              | .error _ => .error .configRejected

/-- The snapshot in a file. -/
def readSnapshot (files : Files) (image : String) : Except Failure Snapshot :=
  match files image with
  | .error why => .error (.imageUnopened image why)
  | .ok (.unreadable why) => .error (.imageUnreadable why)
  | .ok (.file bytes) => .ok ⟨bytes⟩

/-- The database in a file, decoded under options. -/
def readDatabase (files : Files) (config : Option String) (image : String) :
    Except Failure Database := do
  let options ← readOptions files config
  let snapshot ← readSnapshot files image
  match (Database.decode snapshot options).result with
  | .ok database => .ok database
  | .error why => .error (.undecodable image why)

/-- What a request to a program prints. -/
def answer (files : Files) (program : String) : CommandLine.Request → Except Failure String
  | .help => .ok (CommandLine.usage program)
  | .dump asToml config image => do
      let database ← readDatabase files config image
      pure (if asToml then database.toToml else database.listing)

/-- The run of a program on its command line, with the name of the program first.
The log is not part of it: by default it shows nothing of a run. -/
def launch (files : Files) (line : List String) : Outcome :=
  match CommandLine.parse line.tail with
  | .error why => .failed (.arguments why)
  | .ok request =>
      match answer files (CommandLine.program line) request with
      | .ok text => .printed text
      | .error why => .failed why

/-- The run of the program under its own name. -/
def run (files : Files) (arguments : List String) : Outcome :=
  launch files (CommandLine.defaultProgram :: arguments)

end Dump
end Adventure
