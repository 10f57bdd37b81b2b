/-
# The command line

An argument list asks for help or for the dump of one snapshot.  Arguments
are taken from left to right, and the first that settles the matter wins: a
call for help, an option that is not known, a second snapshot, or `--config`
with nothing behind it.  `--config` takes the argument behind it as a file
name whatever it looks like, and a later one replaces it.
-/

namespace Adventure
namespace CommandLine

/-- What is asked for. -/
inductive Request where
  | help
  | dump (asToml : Bool) (config : Option String) (image : String)
deriving DecidableEq

/-- Why an argument list is refused. -/
inductive Refusal where
  | configWithoutName
  | secondImage (second first : String)
  | unknownOption (argument : String)
deriving DecidableEq

/-- The text shown for a refusal. -/
def Refusal.message : Refusal → String
  | .configWithoutName => "--config needs a file name"
  | .secondImage second first =>
      "Unexpected argument: " ++ second ++ " (already dumping " ++ first ++ ")"
  | .unknownOption argument => "Unknown option: " ++ argument

/-- What the arguments so far have said. -/
structure Settings where
  asToml : Bool := false
  config : Option String := none
  image : Option String := none
deriving DecidableEq

/-- What settings ask for when no argument is left: without a snapshot, help. -/
def Settings.request (s : Settings) : Request :=
  match s.image with
  | some image => .dump s.asToml s.config image
  | none => .help

/-- Whether an argument is an option and not a file name. -/
def isOption (argument : String) : Bool :=
  argument.toList.head? == some '-'

/-- Take up the arguments that are left. -/
def parseFrom (s : Settings) : List String → Except Refusal Request
  | [] => .ok s.request
  | argument :: rest =>
      if argument = "--toml" then parseFrom { s with asToml := true } rest
      else if argument = "--config" then
        match rest with
        | [] => .error .configWithoutName
        | name :: rest => parseFrom { s with config := some name } rest
      else if argument = "-h" ∨ argument = "--help" then .ok .help
      else if isOption argument then .error (.unknownOption argument)
      else match s.image with
        | some first => .error (.secondImage argument first)
        | none => parseFrom { s with image := some argument } rest

/-- What an argument list, without the name of the program, asks for. -/
def parse (arguments : List String) : Except Refusal Request :=
  parseFrom {} arguments

/-- The name of a program that was started without one. -/
def defaultProgram : String :=
  "quill-dump"

/-- The name of the program, which stands first on a command line. -/
def program (line : List String) : String :=
  line.head?.getD defaultProgram

/-- The lines of the help text. -/
def usageLines (program : String) : List String :=
  ["quill-dump - decode a Quill adventure database from a memory snapshot",
   "",
   "Usage: " ++ program ++ " [--toml] [--config options.toml] <image>",
   "",
   "Options:",
   "  --toml              Export the decoded database as TOML",
   "  --config <file>     Read decoder options from a TOML file",
   "  -h, --help          Show this help message"]

/-- The help text. -/
def usage (program : String) : String :=
  String.join ((usageLines program).map fun line => line ++ "\n")

end CommandLine
end Adventure
