/-
# The listing

A database as text: six headed parts with one line for each item.  A
location's exits follow its own line; an object's line shows where it is at
the start.
-/
import Adventure.Database

namespace Adventure
namespace Database

/-- One line for each item, numbered from 0. -/
def numbered {α : Type} (lines : Nat → α → List String) (items : List α) : List String :=
  (items.zipIdx.map fun item => lines item.2 item.1).flatten

/-- A numbered text. -/
def numberedLine (i : Nat) (text : String) : String :=
  Numeral.column 4 i ++ ": " ++ text

/-- The line of an exit. -/
def exitLine (e : UInt8 × UInt8) : String :=
  "        exit " ++ toString e.1.toNat ++ " -> " ++ toString e.2.toNat

/-- The lines of a location: its text and its exits. -/
def locationLines (d : Database) (i : Nat) (text : String) : List String :=
  numberedLine i text :: (((d.exits? i).map fun e => e.entries.map exitLine).getD [])

/-- The line of an object; an object without a position is shown at 0. -/
def objectLine (d : Database) (i : Nat) (text : String) : String :=
  Numeral.column 4 i ++ ": [" ++ Numeral.column 3 ((d.positions[i]?.getD 0).toNat) ++ "] " ++ text

/-- The line of a word. -/
def wordLine (e : String × UInt8) : String :=
  Numeral.column 4 e.2.toNat ++ " " ++ e.1

/-- The line of a command. -/
def commandLine (c : Command) : String :=
  "  " ++ c.text

/-- The lines of the listing. -/
def listingLines (d : Database) : List String :=
  ["Locations:"] ++ numbered d.locationLines d.locations ++
  ["", s!"Objects ({d.carried.toNat} carried):"] ++
    numbered (fun i text => [d.objectLine i text]) d.objects ++
  ["", "Messages:"] ++ numbered (fun i text => [numberedLine i text]) d.messages ++
  ["", "Vocabulary:"] ++ d.vocabulary.entries.map wordLine ++
  ["", "Responses:"] ++ (Chain.listOf d.responses).map commandLine ++
  ["", "Processes:"] ++ (Chain.listOf d.processes).map commandLine

/-- Lines with a line feed behind each. -/
def joinLines (lines : List String) : String :=
  lines.foldl (fun text line => text ++ line ++ "\n") ""

/-- The listing. -/
def listing (d : Database) : String :=
  joinLines d.listingLines

end Database
end Adventure
