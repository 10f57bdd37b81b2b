/-
# The sections of a database

A database is a header and eight tables.  Every read is done on behalf of
one of these sections, and a read that leaves the snapshot is blamed on the
section it was done for; `Section.title` is the wording of that blame.
-/

namespace Adventure

/-- The header and the eight tables it points at. -/
inductive Section where
  | header
  | responses
  | processes
  | objects
  | locations
  | messages
  | connections
  | vocabulary
  | positions
deriving DecidableEq

/-- How a section is named in faults and log records. -/
def Section.title : Section → String
  | .header => "header"
  | .responses => "response table"
  | .processes => "process table"
  | .objects => "object descriptions"
  | .locations => "location descriptions"
  | .messages => "message table"
  | .connections => "connection table"
  | .vocabulary => "vocabulary"
  | .positions => "initial object positions"

end Adventure
