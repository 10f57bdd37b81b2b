/-
# Commands

A command pairs two selector words with the conditions under which it runs
and the actions it performs.  The response table is searched with the words
that the player typed; the process table runs on every turn, and its
commands carry the word 255 twice.
-/
import Adventure.Chain
import Adventure.Numeral
import Adventure.Rules.Instruction
import Adventure.Section

namespace Adventure

/-- The two rule tables. -/
inductive CommandKind where
  /-- Matched against the words that the player typed. -/
  | response
  /-- Run on every turn. -/
  | process
deriving DecidableEq

namespace CommandKind

/-- The section that a rule table is. -/
def part : CommandKind → Section
  | .response => .responses
  | .process => .processes

/-- The kind of a single entry, as the log names it. -/
def title : CommandKind → String
  | .response => "Response"
  | .process => "Process"

end CommandKind

/-- The selector word that matches every word. -/
def anyWord : UInt8 := 255

/-- One entry of a rule table. -/
structure Command where
  word1 : UInt8
  word2 : UInt8
  conditions : List Condition
  actions : Option (Chain Action)

namespace Command

instance : BEq Command where
  beq c d :=
    c.word1 == d.word1 && c.word2 == d.word2 && c.conditions == d.conditions &&
      c.actions == d.actions

/-- Commands are equal when their words, conditions and actions are. -/
theorem beq_iff (c d : Command) :
    (c == d) = true ↔
      c.word1 = d.word1 ∧ c.word2 = d.word2 ∧ c.conditions = d.conditions ∧
        c.actions = d.actions := by
  change (c.word1 == d.word1 && c.word2 == d.word2 && c.conditions == d.conditions &&
    c.actions == d.actions) = true ↔ _
  simp [and_assoc]

instance : LawfulBEq Command where
  eq_of_beq {c d} h := by
    obtain ⟨h1, h2, h3, h4⟩ := (beq_iff c d).1 h
    cases c
    cases d
    simp_all
  rfl := (beq_iff _ _).2 ⟨rfl, rfl, rfl, rfl⟩

/-- A command with a chain of actions of its own. -/
def copy (c : Command) : Command :=
  { c with actions := c.actions.map (Chain.copy id) }

/-- The actions in order; none when there is no chain. -/
def actionList (c : Command) : List Action :=
  Chain.listOf c.actions

/-- Items in brackets, each with a space in front. -/
def bracketed (items : List String) : String :=
  items.foldl (fun line item => line ++ " [" ++ item ++ "]") ""

/-- The command in a listing, such as ` 20  30 : [C3 0] => [A13 0] [A4]`. -/
def text (c : Command) : String :=
  Numeral.column 3 c.word1.toNat ++ " " ++ Numeral.column 3 c.word2.toNat ++ " :" ++
    bracketed (c.conditions.map Condition.text) ++ " =>" ++
    bracketed (c.actionList.map Action.text)

end Command

/-- A rule table: a chain of commands, or nothing. -/
abbrev CommandTable := Option (Chain Command)

end Adventure
