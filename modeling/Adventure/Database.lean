/-
# The database

Everything that one snapshot holds, decoded: the texts, the vocabulary, the
two rule tables, the exits of every location, and where the objects are at
the start.  Two databases are equal when all of this is; vocabularies and
exits are compared as maps, without their order.
-/
import Adventure.Exits
import Adventure.Rules.Command
import Adventure.Vocabulary

namespace Adventure

/-- A decoded adventure database. -/
structure Database where
  locations : List String
  objects : List String
  messages : List String
  vocabulary : Vocabulary
  responses : CommandTable
  processes : CommandTable
  /-- The exits of each location, in the order of `locations`. -/
  connections : List Exits
  /-- Where each object is at the start, in the order of `objects`. -/
  positions : List UInt8
  /-- The first `carried` objects are in the player's hands at the start. -/
  carried : UInt8

namespace Database

instance : BEq Database where
  beq a b :=
    a.locations == b.locations && a.objects == b.objects && a.messages == b.messages &&
      a.vocabulary == b.vocabulary && a.responses == b.responses &&
      a.processes == b.processes && a.connections == b.connections &&
      a.positions == b.positions && a.carried == b.carried

/-- The token of a word as the player types it. -/
def lookup (d : Database) (query : String) : Option UInt8 :=
  d.vocabulary.find? query

/-- The words of a token, in table order. -/
def wordsOf (d : Database) (token : UInt8) : List String :=
  d.vocabulary.withToken token

/-- The texts of the objects that the player starts with. -/
def carriedObjects (d : Database) : List String :=
  d.objects.take d.carried.toNat

/-- The exits of a location. -/
def exits? (d : Database) (location : Nat) : Option Exits :=
  d.connections[location]?

end Database
end Adventure
