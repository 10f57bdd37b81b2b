/-
# Laying a text out

The machine's screen is 32 columns wide, and a line that is full goes on
without a break.  To keep words apart where the screen would have broken the
line, a space is put in front of a fragment that would start column 32,
unless the fragment already ends in one.  A fragment is one column however
many characters it has, also when it has none; ink tags take no column; a
newline or a paragraph starts the columns afresh after itself.
-/
import Adventure.Text.Token

namespace Adventure
namespace Text

/-- The screen width. -/
def lineWidth : Nat := 32

/-- A text under way: what is laid out, and the columns used in its line. -/
structure Layout where
  text : String
  column : Nat

namespace Layout

/-- Nothing laid out. -/
def start : Layout :=
  ⟨"", 0⟩

/-- Whether a fragment ends in a space. -/
def endsInSpace (fragment : String) : Bool :=
  fragment.toList.getLast? == some ' '

/-- One column: a fragment, with a space before it when the line is full. -/
def put (l : Layout) (fragment : String) : Layout :=
  if l.column = lineWidth then
    ⟨(if endsInSpace fragment then l.text else l.text ++ " ") ++ fragment, 1⟩
  else
    ⟨l.text ++ fragment, l.column + 1⟩

/-- A fragment after which the line begins again. -/
def breakWith (l : Layout) (fragment : String) : Layout :=
  ⟨(l.put fragment).text, 0⟩

/-- A tag that takes no column. -/
def tag (l : Layout) (markup : String) : Layout :=
  ⟨l.text ++ markup, l.column⟩

/-- Lay out one token. -/
def token (l : Layout) : Token → Layout
  | .visible c => l.put (Charset.glyph c)
  | .newline => l.breakWith " "
  | .paragraph => l.breakWith "<p>"
  | .ink c => match Charset.ink? c with
      | some css => l.tag ("<font color=" ++ css ++ ">")
      | none => l
  | .paper _ => l
  | .control _ => l

end Layout

/-- The text of a list of tokens. -/
def render (tokens : List Token) : String :=
  (tokens.foldl Layout.token Layout.start).text

end Text
end Adventure
