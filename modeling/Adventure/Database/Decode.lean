/-
# Decoding a snapshot

The whole decode: find the marker, resolve the header, and read the tables
it points at in a fixed order.  The first fault ends it, and a version that
is not known is refused before anything is read.
-/
import Adventure.Database
import Adventure.Header.Resolve
import Adventure.Options
import Adventure.Rules.Bytecode
import Adventure.Text.Stored

namespace Adventure
namespace Database

/-- The tables behind a header. -/
def readTables (m : Snapshot) (arguments : ArgumentTable) (h : Header) : Reading Database := do
  let responses ← Rules.readCommands m .response arguments h.responses
  let processes ← Rules.readCommands m .process arguments h.processes
  let objects ← Text.readAll m .objects h.objects h.objectCount.toNat
  let locations ← Text.readAll m .locations h.locations h.locationCount.toNat
  let messages ← Text.readAll m .messages h.messages h.messageCount.toNat
  let connections ← Exits.readAll m h.connections h.locationCount.toNat
  let vocabulary ← Vocabulary.read m h.vocabulary
  let positions ← m.slice .positions h.positions h.objectCount.toNat
  pure { locations, objects, messages, vocabulary, responses, processes, connections,
         positions, carried := h.carried }

/-- The event that sums a database up. -/
def summary (d : Database) : Event :=
  .databaseDecoded d.locations.length d.objects.length d.messages.length d.vocabulary.size
    (Chain.sizeOf d.responses) (Chain.sizeOf d.processes)

/-- The database of a snapshot. -/
def decode (m : Snapshot) (options : Options) : Reading Database := do
  let version ← Reading.settled options.supported
  let anchor ← Signature.locate m options.searchStart
  let header ← Header.resolve m anchor
  Reading.record (.headerListed header)
  let database ← readTables m version.arguments header
  Reading.record database.summary
  pure database

end Database
end Adventure
