/-
# The vocabulary

A vocabulary record is four stored characters and a token; a record whose
token is 0 ends the table.  Words are kept without the white space around
them.  A word that is stored again keeps its place and takes the later token.

A word that the player types is looked up without the white space around it
and in upper case.  The stored words are taken as they are, and so a stored
word with a letter that has an upper case cannot be reached.
-/
import Adventure.OrderedMap
import Adventure.Reading.Walk
import Adventure.Snapshot
import Adventure.Text.Charset
import Adventure.Unicode.Blank
import Adventure.Unicode.Upper

namespace Adventure

/-- Words and their tokens. -/
abbrev Vocabulary := OrderedMap String UInt8

namespace Vocabulary

/-- The number of characters of a stored word. -/
def wordLength : Nat := 4

/-- The word that stored bytes spell. -/
def spell (stored : List UInt8) : String :=
  String.ofList (Blank.trimList (stored.map fun b => Charset.latin (Charset.code b)))

/-- The record at `p`, or the end of the table.  The token is read first. -/
def wordAt (m : Snapshot) (p : Nat) : Reading (Step (String × UInt8)) := do
  let token ← m.byteAt .vocabulary p wordLength
  if token = 0 then
    pure (.stop (wordLength + 1))
  else
    let stored ← m.slice .vocabulary p wordLength
    pure (.record (spell stored, token) wordLength)

/-- What is reported about a record at `p`: the word, and the token that it
had before if it was stored earlier. -/
def wordEvents (earlier : List (String × UInt8)) (p : Nat) (w : String × UInt8) : List Event :=
  .wordRead p w.1 w.2 :: (earlier.lookup w.1).toList.map fun old => .tokenReplaced old w.2

/-- The records of the table. -/
def words (m : Snapshot) : Records (String × UInt8) where
  size := m.size
  step := wordAt m
  note := wordEvents
  inside _ _ _ h := m.inside_of_result_bind h

/-- The vocabulary at `start`. -/
def read (m : Snapshot) (start : Nat) : Reading Vocabulary := do
  let (list, _) ← (words m).walk start
  let vocabulary : Vocabulary := OrderedMap.ofList list
  Reading.record (.vocabularyRead vocabulary.size start)
  pure vocabulary

/-- The form in which a typed word is looked up. -/
def typed (query : String) : String :=
  Upper.text (Blank.trim query)

/-- The token of a word as the player types it. -/
def find? (v : Vocabulary) (query : String) : Option UInt8 :=
  OrderedMap.get? v (typed query)

/-- The words of a token, in table order. -/
def withToken (v : Vocabulary) (token : UInt8) : List String :=
  (v.entries.filter fun e => e.2 == token).map Prod.fst

end Vocabulary
end Adventure
