/-
# Text tokens

A stored text is a run of tokens closed by the code 31.  A token is a
visible code; a newline, or two newlines together, which are a paragraph;
an ink or a paper colour with its argument; or a control code without
meaning.  `Token.codes` is the stored form of a token, as codes.
-/
import Adventure.Text.Charset

namespace Adventure
namespace Text

/-- A line break; two of them are a paragraph. -/
def newlineCode : UInt8 := 6

/-- A change of ink; the colour follows. -/
def inkCode : UInt8 := 16

/-- A change of paper; the colour follows. -/
def paperCode : UInt8 := 17

/-- The end of a text. -/
def endCode : UInt8 := 31

/-- One unit of a stored text. -/
inductive Token where
  /-- A visible code: 32 or above. -/
  | visible (code : UInt8)
  /-- One newline, which is read as a space. -/
  | newline
  /-- Two newlines together. -/
  | paragraph
  /-- A change of ink. -/
  | ink (colour : UInt8)
  /-- A change of paper, which leaves no trace in the text. -/
  | paper (colour : UInt8)
  /-- A control code that is skipped. -/
  | control (code : UInt8)
deriving DecidableEq

namespace Token

/-- The codes of a token. -/
def codes : Token → List UInt8
  | visible c => [c]
  | newline => [newlineCode]
  | paragraph => [newlineCode, newlineCode]
  | ink c => [inkCode, c]
  | paper c => [paperCode, c]
  | control c => [c]

end Token
end Text
end Adventure
