/-
# Texts in a snapshot

A stored text is walked token by token up to its end code and then laid
out.  The byte behind a newline is looked at, to tell a newline from a
paragraph, and so a text whose newline is the last byte of the snapshot is
as incomplete as one without an end code.  Several texts are packed, each
starting behind the end code of the one before.
-/
import Adventure.Reading.Walk
import Adventure.Snapshot
import Adventure.Text.Layout

namespace Adventure
namespace Text

/-- The code stored `k` after `p`. -/
def codeAt (m : Snapshot) (part : Section) (p k : Nat) : Reading UInt8 := do
  let stored ← m.byteAt part p k
  pure (Charset.code stored)

/-- The token that begins at `p` with the code `c`, or the end of the text. -/
def tokenFrom (m : Snapshot) (part : Section) (p : Nat) (c : UInt8) : Reading (Step Token) :=
  if c = endCode then
    pure (.stop 1)
  else if 32 ≤ c then
    pure (.record (.visible c) 0)
  else if c = newlineCode then do
    let next ← codeAt m part p 1
    pure (if next = newlineCode then .record .paragraph 1 else .record .newline 0)
  else if c = inkCode then do
    let colour ← codeAt m part p 1
    pure (.record (.ink colour) 1)
  else if c = paperCode then do
    let colour ← codeAt m part p 1
    pure (.record (.paper colour) 1)
  else
    pure (.record (.control c) 0)

/-- The token at `p`, or the end of the text. -/
def tokenAt (m : Snapshot) (part : Section) (p : Nat) : Reading (Step Token) := do
  let stored ← m.byteAt part p 0
  tokenFrom m part p (Charset.code stored)

/-- What is reported about a token at `p`: the codes that leave no trace. -/
def tokenEvents (p : Nat) : Token → List Event
  | .visible _ => []
  | .newline => []
  | .paragraph => []
  | .ink c => match Charset.ink? c with
      | some _ => []
      | none => [.inkIgnored c (p + 1)]
  | .paper c => [.paperSkipped c (p + 1)]
  | .control c => [.controlIgnored c p]

/-- The tokens of a text. -/
def tokens (m : Snapshot) (part : Section) : Records Token where
  size := m.size
  step := tokenAt m part
  note _ p t := tokenEvents p t
  inside _ _ _ h := m.inside_of_result_bind h

/-- The text at `start` and the offset behind its end code. -/
def read (m : Snapshot) (part : Section) (start : Nat) : Reading (String × Nat) := do
  let (tokens, next) ← (tokens m part).walk start
  let text := render tokens
  Reading.record (.textDecoded start next text)
  pure (text, next)

/-- `count` texts packed from `start` on. -/
def readAll (m : Snapshot) (part : Section) (start count : Nat) : Reading (List String) := do
  let (texts, next) ← packed (fun _ p => read m part p) count start
  Reading.record (.textsDecoded part count start next)
  pure texts

end Text
end Adventure
