/-
# Folders

A folder holds files and folders by name.  `Folder.open?` finds what a path
leads to, component by component: a dot stays, two dots go up, a name goes
down.  Only a folder can be gone through, and a name has at most 255 bytes
and a path fewer than 4096.  Nothing is known of what lies outside.

`SystemFault` is the way in which opening or reading a file fails, as the
system tells it.
-/
import Adventure.OrderedMap
import Adventure.Rules.FieldForm

namespace Adventure

/-- Why a file cannot be opened or read: the number of the system's error and
the words for it. -/
structure SystemFault where
  code : Nat
  text : String
deriving DecidableEq

namespace SystemFault

/-- Nothing stands behind the name. -/
def missing : SystemFault :=
  ⟨2, "No such file or directory"⟩

/-- What a path goes through is not a folder. -/
def notDirectory : SystemFault :=
  ⟨20, "Not a directory"⟩

/-- What is read as a file is a folder. -/
def isDirectory : SystemFault :=
  ⟨21, "Is a directory"⟩

/-- A name or a path is too long. -/
def nameTooLong : SystemFault :=
  ⟨36, "File name too long"⟩

/-- The numbers whose kind is known, with their kinds. -/
def kinds : OrderedMap Nat String where
  entries :=
    [(1, "PermissionDenied"), (2, "NotFound"), (4, "Interrupted"), (7, "ArgumentListTooLong"),
     (11, "WouldBlock"), (12, "OutOfMemory"), (13, "PermissionDenied"), (16, "ResourceBusy"),
     (17, "AlreadyExists"), (18, "CrossesDevices"), (20, "NotADirectory"), (21, "IsADirectory"),
     (22, "InvalidInput"), (26, "ExecutableFileBusy"), (27, "FileTooLarge"), (28, "StorageFull"),
     (29, "NotSeekable"), (30, "ReadOnlyFilesystem"), (31, "TooManyLinks"), (32, "BrokenPipe"),
     (35, "Deadlock"), (36, "InvalidFilename"), (38, "Unsupported"), (39, "DirectoryNotEmpty"),
     (40, "FilesystemLoop"), (95, "Unsupported"), (98, "AddrInUse"), (99, "AddrNotAvailable"),
     (100, "NetworkDown"), (101, "NetworkUnreachable"), (103, "ConnectionAborted"),
     (104, "ConnectionReset"), (107, "NotConnected"), (110, "TimedOut"),
     (111, "ConnectionRefused"), (113, "HostUnreachable"), (115, "InProgress"),
     (116, "StaleNetworkFileHandle"), (122, "QuotaExceeded")]
  nodup := by decide

/-- The kind of a fault, which its number decides. -/
def kind (f : SystemFault) : String :=
  (kinds.get? f.code).getD "Uncategorized"

/-- A fault in words with its number. -/
def described (f : SystemFault) : String :=
  f.text ++ " (os error " ++ toString f.code ++ ")"

/-- A fault field by field. -/
def fields (f : SystemFault) : String :=
  FieldForm.record "Os"
    [("code", toString f.code), ("kind", f.kind), ("message", "\"" ++ f.text ++ "\"")]

end SystemFault

/-- What stands behind a name that can be opened. -/
inductive Opened where
  | file (bytes : Array UInt8)
  /-- What can be opened and not be read. -/
  | unreadable (why : SystemFault)

/-- A folder can be opened, and is not read as a file. -/
@[match_pattern] def Opened.directory : Opened :=
  .unreadable .isDirectory

/-- Names to what stands behind them. -/
abbrev Files := String → Except SystemFault Opened

/-- What a folder holds, by path. -/
structure Folder where
  items : List (List String × Opened)

namespace Folder

/-- Where a walk along a path has come to. -/
inductive Place where
  | inside (path : List String)
  | leaf (what : Opened)
  | outside

/-- The longest name, in bytes. -/
def nameLimit : Nat := 255

/-- The longest path, in bytes. -/
def pathLimit : Nat := 4095

/-- What stands in the folder at a path. -/
def at? (f : Folder) (path : List String) : Except SystemFault Place :=
  match f.items.lookup path with
  | some .directory => .ok (.inside path)
  | some what => .ok (.leaf what)
  | none =>
      if f.items.any fun item => path.isPrefixOf item.1 then .ok (.inside path)
      else .error .missing

/-- One component further. -/
def enter (f : Folder) (place : Place) (component : String) : Except SystemFault Place :=
  match place with
  | .leaf _ => .error .notDirectory
  | .outside =>
      if component = "" ∨ component = "." ∨ component = ".." then .ok .outside
      else if nameLimit < component.utf8ByteSize then .error .nameTooLong
      else .error .missing
  | .inside path =>
      if component = "" ∨ component = "." then .ok place
      else if component = ".." then
        if path.isEmpty then .ok .outside else .ok (.inside path.dropLast)
      else if nameLimit < component.utf8ByteSize then .error .nameTooLong
      else f.at? (path ++ [component])

/-- What a path leads to. -/
def open? (f : Folder) : Files := fun path =>
  if path.isEmpty then .error .missing
  else if pathLimit < path.utf8ByteSize then .error .nameTooLong
  else do
    let start : Place := if path.toList.head? = some '/' then .outside else .inside []
    match (← (path.splitOn "/").foldlM f.enter start) with
    | .leaf what => pure what
    | .inside _ => pure .directory
    | .outside => pure .directory

end Folder
end Adventure
