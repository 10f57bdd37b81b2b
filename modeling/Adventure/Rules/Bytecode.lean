/-
# Rule bytecode

A command's block is a list of conditions and behind it a list of actions,
each closed by the byte 255.  In a place where an opcode is expected 255
always ends the list; as a parameter it is a number like any other.

A condition's opcode says how long the condition is.  An action's length
comes from an argument table; of its parameters the first two are kept, and
the others are stepped over without being read.
-/
import Adventure.Reading.Walk
import Adventure.Rules.Arity
import Adventure.Snapshot

namespace Adventure
namespace Rules

/-! ## Conditions -/

/-- The condition at `p`, or the end of the list. -/
def conditionAt (m : Snapshot) (part : Section) (p : Nat) : Reading (Step Condition) := do
  let opcode ← m.byteAt part p 0
  if opcode = endOfList then
    pure (.stop 1)
  else
    let param1 ← m.byteAt part p 1
    if opcode ≤ Condition.lastSingle then
      pure (.record ⟨opcode, param1, none⟩ 1)
    else
      let param2 ← m.byteAt part p 2
      pure (.record ⟨opcode, param1, some param2⟩ 2)

/-- A list of conditions. -/
def conditions (m : Snapshot) (part : Section) : Records Condition where
  size := m.size
  step := conditionAt m part
  note _ p c := [.conditionRead p c]
  inside _ _ _ h := m.inside_of_result_bind h

/-- The conditions at `p` and the offset behind their terminator. -/
def readConditions (m : Snapshot) (part : Section) (p : Nat) : Reading (List Condition × Nat) :=
  (conditions m part).walk p

/-! ## Actions -/

/-- The parameter `k` after an opcode that takes `count` of them, if there is one. -/
def parameterAt (m : Snapshot) (part : Section) (p count k : Nat) : Reading (Option UInt8) :=
  if k ≤ count then do
    let b ← m.byteAt part p k
    pure (some b)
  else
    pure none

/-- The action at `p`, or the end of the list. -/
def actionAt (m : Snapshot) (part : Section) (arguments : ArgumentTable) (p : Nat) :
    Reading (Step Action) := do
  let opcode ← m.byteAt part p 0
  if opcode = endOfList then
    pure (.stop 1)
  else
    let count := arguments.count opcode
    let param1 ← parameterAt m part p count 1
    let param2 ← parameterAt m part p count 2
    pure (.record ⟨opcode, param1, param2⟩ count)

/-- A list of actions. -/
def actions (m : Snapshot) (part : Section) (arguments : ArgumentTable) : Records Action where
  size := m.size
  step := actionAt m part arguments
  note _ _ _ := []
  inside _ _ _ h := m.inside_of_result_bind h

/-- The chain of actions at `p`; none when the list is empty. -/
def readActions (m : Snapshot) (part : Section) (arguments : ArgumentTable) (p : Nat) :
    Reading (Option (Chain Action)) := do
  let (list, _) ← (actions m part arguments).walk p
  pure (Chain.ofList? list)

/-- The conditions and the actions of the block at `p`. -/
def readBlock (m : Snapshot) (part : Section) (arguments : ArgumentTable) (p : Nat) :
    Reading (List Condition × Option (Chain Action)) := do
  let (conditions, next) ← readConditions m part p
  let actions ← readActions m part arguments next
  pure (conditions, actions)

/-! ## Command tables -/

/-- The words of the entry at `p`, whose first byte is `first`.  The words of
a process entry mean nothing and are not read. -/
def wordsAt (m : Snapshot) (kind : CommandKind) (p : Nat) (first : UInt8) :
    Reading (UInt8 × UInt8) :=
  match kind with
  | .response => do
      let second ← m.byteAt kind.part p 1
      pure (first, second)
  | .process => pure (anyWord, anyWord)

/-- An entry of a rule table together with the address of its block. -/
structure Entry where
  command : Command
  block : Nat

/-- The entry at `p`, or the zero byte that ends the table. -/
def entryAt (m : Snapshot) (kind : CommandKind) (arguments : ArgumentTable) (p : Nat) :
    Reading (Step Entry) := do
  let first ← m.byteAt kind.part p 0
  if first = 0 then
    pure (.stop 1)
  else
    let (word1, word2) ← wordsAt m kind p first
    let block ← m.wordAt kind.part p 2
    let (conditions, actions) ← readBlock m kind.part arguments block
    pure (.record ⟨⟨word1, word2, conditions, actions⟩, block⟩ 3)

/-- The entries of a rule table. -/
def entries (m : Snapshot) (kind : CommandKind) (arguments : ArgumentTable) : Records Entry where
  size := m.size
  step := entryAt m kind arguments
  note _ p e :=
    [.commandRead kind p e.command.word1 e.command.word2 e.block e.command.conditions.length]
  inside _ _ _ h := m.inside_of_result_bind h

/-- The rule table at `start`. -/
def readCommands (m : Snapshot) (kind : CommandKind) (arguments : ArgumentTable) (start : Nat) :
    Reading CommandTable := do
  let (list, _) ← (entries m kind arguments).walk start
  Reading.record (.commandsRead kind list.length start)
  pure (Chain.ofList? (list.map Entry.command))

end Rules
end Adventure
