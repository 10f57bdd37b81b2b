/-
# What a decode reports

While a snapshot is read, an event is recorded for each item that has been
read completely: for items at level `trace`, for whole tables at level
`debug`.  An event is kept as data; `Event.message` is its wording.
-/
import Adventure.Header
import Adventure.Rules.Command
import Adventure.Text.Quoted

namespace Adventure

/-- How much detail a record is part of. -/
inductive Level where
  | debug
  | trace
deriving DecidableEq

/-- Something that was found while a snapshot was read. -/
inductive Event where
  | signatureFound (anchor : Nat)
  | signatureMissing (start size : Nat)
  | headerRead (header : Header)
  | headerListed (header : Header)
  | conditionRead (offset : Nat) (condition : Condition)
  | commandRead (kind : CommandKind) (offset : Nat) (word1 word2 : UInt8) (block : Nat)
      (conditions : Nat)
  | commandsRead (kind : CommandKind) (count start : Nat)
  | inkIgnored (colour : UInt8) (offset : Nat)
  | paperSkipped (colour : UInt8) (offset : Nat)
  | controlIgnored (code : UInt8) (offset : Nat)
  | textDecoded (start next : Nat) (text : String)
  | textsDecoded (part : Section) (count start next : Nat)
  | exitsRead (location count : Nat)
  | connectionsRead (locations start : Nat)
  | wordRead (offset : Nat) (word : String) (token : UInt8)
  | tokenReplaced (previous token : UInt8)
  | vocabularyRead (words start : Nat)
  | databaseDecoded (locations objects messages words responses processes : Nat)

namespace Event

/-- Tables are reported at `debug`, items at `trace`. -/
def level : Event → Level
  | signatureFound .. => .debug
  | signatureMissing .. => .debug
  | headerRead .. => .debug
  | headerListed .. => .trace
  | conditionRead .. => .trace
  | commandRead .. => .trace
  | commandsRead .. => .debug
  | inkIgnored .. => .trace
  | paperSkipped .. => .trace
  | controlIgnored .. => .trace
  | textDecoded .. => .trace
  | textsDecoded .. => .debug
  | exitsRead .. => .trace
  | connectionsRead .. => .debug
  | wordRead .. => .trace
  | tokenReplaced .. => .trace
  | vocabularyRead .. => .debug
  | databaseDecoded .. => .debug

open Numeral in
/-- The wording of an event. -/
def message : Event → String
  | signatureFound anchor => s!"Database signature found at {address anchor}"
  | signatureMissing start size =>
      s!"No database signature between {address start} and {address size}"
  | headerRead h =>
      s!"Header at {address (h.anchor + Header.distance)}: {h.objectCount.toNat} objects " ++
        s!"({h.carried.toNat} carried), {h.locationCount.toNat} locations, " ++
        s!"{h.messageCount.toNat} messages"
  | headerListed h => "Database header:" ++ h.listing
  | conditionRead offset c => s!"Condition at {address offset}: {c.text}"
  | commandRead kind offset word1 word2 block conditions =>
      s!"{kind.title} at {address offset}: words {word1.toNat} {word2.toNat}, " ++
        s!"block {address block}, {conditions} conditions"
  | commandsRead kind count start =>
      s!"Read {count} entries from {kind.part.title} at {address start}"
  | inkIgnored colour offset => s!"Ignoring ink colour {colour.toNat} at {address offset}"
  | paperSkipped colour offset => s!"Skipping paper colour {colour.toNat} at {address offset}"
  | controlIgnored code offset =>
      s!"Ignoring control code {hex 2 code.toNat} at {address offset}"
  | textDecoded start next text =>
      s!"Decoded string at {address start}..{address next}: {Quoted.text text}"
  | textsDecoded part count start next =>
      s!"Decoded {count} strings for {part.title} ({address start}..{address next})"
  | exitsRead location count => s!"Location {location}: {count} exits"
  | connectionsRead locations start =>
      s!"Read exits for {locations} locations at {address start}"
  | wordRead offset word token =>
      s!"Vocabulary {address offset}: {Quoted.text word} = {token.toNat}"
  | tokenReplaced previous token =>
      s!"Token {previous.toNat} replaced by {token.toNat} for duplicate word"
  | vocabularyRead words start => s!"Read {words} vocabulary words at {address start}"
  | databaseDecoded locations objects messages words responses processes =>
      s!"Decoded database: {locations} locations, {objects} objects, {messages} messages, " ++
        s!"{words} words, {responses} responses, {processes} processes"

end Event

/-- The records that a log of level `shown` keeps. -/
def Level.shows (shown : Level) (e : Event) : Bool :=
  shown == .trace || e.level == .debug

end Adventure
