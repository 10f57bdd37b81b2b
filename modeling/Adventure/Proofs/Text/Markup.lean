/-
# Texts as markup

A decoded text is markup, and what a game stored must not be able to add any
of its own.  `Markup.Piece` lists what a text may consist of: a character that
means itself, an entity, a paragraph, an ink tag, and the two glyphs that are
drawn by overprinting.  `Markup.InPlace` says what that comes to for a single
character where it stands: a character with a meaning in markup is part of a
whole tag or entity, and no character is a control.

The main statement is `read_markup`: every text that can be read, from any
place of any snapshot, consists of such pieces, and each of its characters is
in place.  Both follow from the segments of a text, one by one; the pieces
make up a text by concatenation, and a character that is in place in one piece
stays so between others (`InPlace.between`).
-/
import Adventure.Proofs.Text.Wrapping

namespace Adventure
namespace Markup

/-! ## What markup consists of -/

/-- A character that can be shown and means itself. -/
def Plain (c : Char) : Prop :=
  0x20 ≤ c.toNat ∧ c.toNat ≠ 0x7f ∧ c ≠ '&' ∧ c ≠ '<' ∧ c ≠ '>'

instance : DecidablePred Plain :=
  fun _ => inferInstanceAs (Decidable (_ ∧ _))

/-- Nothing but plain characters. -/
def AllPlain (w : List Char) : Prop :=
  ∀ c ∈ w, Plain c

-- Looks at the characters of the list, and not at every character there is.
instance : DecidablePred AllPlain :=
  fun w => List.decidableBAll Plain w

/-- The entities that a text may have. -/
def entities : List String :=
  ["&amp;", "&lt;", "&gt;", "&pound;", "&copy;"]

/-- The tags of the eight inks. -/
def inkTags : List String :=
  Charset.inks.map fun css => "<font color=" ++ css ++ ">"

/-- The glyphs that are two letters over each other. -/
def overlays : List String :=
  ["<span style=\"position:relative\">T<span style=\"position: absolute; left: 0\">ž</span></span>",
    "<span style=\"position:relative\">M<span style=\"position: relative; left: -0.4em\">K</span></span>"]

/-- A piece of a text. -/
inductive Piece : String → Prop where
  | character {c : Char} : Plain c → Piece (String.singleton c)
  | entity {s : String} : s ∈ entities → Piece s
  | paragraph : Piece "<p>"
  | ink {s : String} : s ∈ inkTags → Piece s
  | overlay {s : String} : s ∈ overlays → Piece s

/-- What stands between the angle brackets of the tags of a piece. -/
def tagBodies : List String :=
  ["p", "span style=\"position:relative\"", "span style=\"position: absolute; left: 0\"",
    "span style=\"position: relative; left: -0.4em\"", "/span"] ++
    Charset.inks.map fun css => "font color=" ++ css

/-- Every tag that occurs in a piece. -/
def tags : List String :=
  tagBodies.map fun body => "<" ++ body ++ ">"

/-- A character between others is no control; if it is an angle bracket, it is
the first or the last of a tag that stands there whole, and if it is an
ampersand, the first of an entity. -/
structure InPlace (before : List Char) (c : Char) (after : List Char) : Prop where
  shown : 0x20 ≤ c.toNat ∧ c.toNat ≠ 0x7f
  opening : c = '<' → ∃ t ∈ tags, t.toList <+: c :: after
  closing : c = '>' → ∃ t ∈ tags, t.toList <:+ before ++ [c]
  entity : c = '&' → ∃ e ∈ entities, e.toList <+: c :: after

/-- A text of pieces. -/
def Consists (text : String) : Prop :=
  ∃ pieces : List String, (∀ s ∈ pieces, Piece s) ∧ text = String.join pieces

/-- A text with every character in place. -/
def Sound (text : List Char) : Prop :=
  ∀ before c after, text = before ++ c :: after → InPlace before c after

/-! ## Concatenation -/

theorem consists_empty : Consists "" :=
  ⟨[], by simp, rfl⟩

theorem Piece.consists {s : String} (h : Piece s) : Consists s :=
  ⟨[s], by simpa using h, by simp⟩

theorem Consists.append {s t : String} (hs : Consists s) (ht : Consists t) : Consists (s ++ t) := by
  obtain ⟨ps, hps, rfl⟩ := hs
  obtain ⟨qs, hqs, rfl⟩ := ht
  exact ⟨ps ++ qs, List.forall_mem_append.2 ⟨hps, hqs⟩, String.join_append.symm⟩

theorem consists_join {l : List String} (h : ∀ s ∈ l, Consists s) : Consists (String.join l) := by
  induction l with
  | nil => exact consists_empty
  | cons s l ih =>
      obtain ⟨hs, hl⟩ := List.forall_mem_cons.1 h
      rw [String.join_cons]
      exact hs.append (ih hl)

/-- Plain characters are pieces by themselves. -/
theorem AllPlain.consists {s : String} (h : AllPlain s.toList) : Consists s := by
  refine ⟨s.toList.map String.singleton, ?_, ?_⟩
  · intro t ht
    obtain ⟨c, hc, rfl⟩ := List.mem_map.1 ht
    exact .character (h c hc)
  · apply String.ext
    rw [String.toList_join]
    simp [List.flatMap_map]

/-- A character that is in place stays so between others. -/
theorem InPlace.between {before after : List Char} {c : Char} (h : InPlace before c after)
    (u v : List Char) : InPlace (u ++ before) c (after ++ v) where
  shown := h.shown
  opening := by
    intro hc
    obtain ⟨t, ht, hpre⟩ := h.opening hc
    exact ⟨t, ht, hpre.trans (List.prefix_append (c :: after) v)⟩
  closing := by
    intro hc
    obtain ⟨t, ht, hsuf⟩ := h.closing hc
    refine ⟨t, ht, hsuf.trans ?_⟩
    rw [List.append_assoc]
    exact List.suffix_append u _
  entity := by
    intro hc
    obtain ⟨e, he, hpre⟩ := h.entity hc
    exact ⟨e, he, hpre.trans (List.prefix_append (c :: after) v)⟩

theorem Sound.append {u v : List Char} (hu : Sound u) (hv : Sound v) : Sound (u ++ v) := by
  intro before c after h
  -- The cut before `c` is inside `v` or inside `u`; at the end of `u` it is one of `v`.
  rcases List.append_eq_append_iff.1 h with ⟨w, rfl, hw⟩ | ⟨w, rfl, hw⟩
  · simpa using (hv w c after hw).between u []
  · cases w with
    | nil => simpa using (hv [] c after hw.symm).between before []
    | cons d w =>
        obtain ⟨rfl, rfl⟩ := List.cons.inj hw
        simpa using (hu before c w rfl).between [] v

/-- A plain character is in place everywhere. -/
theorem Plain.inPlace {c : Char} (h : Plain c) (before after : List Char) :
    InPlace before c after := by
  obtain ⟨hshown, hdelete, hand, hless, hgreater⟩ := h
  exact ⟨⟨hshown, hdelete⟩, fun h => absurd h hless, fun h => absurd h hgreater,
    fun h => absurd h hand⟩

theorem AllPlain.sound {w : List Char} (h : AllPlain w) : Sound w := by
  rintro before c after rfl
  exact (h c (by simp)).inPlace before after

/-- An entity is an ampersand before plain characters. -/
theorem sound_of_mem_entities {s : String} (h : s ∈ entities) : Sound s.toList := by
  have form : ∀ s ∈ entities, s.toList = '&' :: s.toList.tail ∧ AllPlain s.toList.tail := by
    decide
  obtain ⟨hs, hplain⟩ := form s h
  intro before c after hsplit
  rw [hs] at hsplit
  cases before with
  | nil =>
      obtain ⟨rfl, rfl⟩ := List.cons.inj hsplit
      exact ⟨by decide, nofun, nofun, fun _ => ⟨s, h, [], (List.append_nil _).trans hs⟩⟩
  | cons d before =>
      obtain ⟨-, hrest⟩ := List.cons.inj hsplit
      exact (hplain c (by simp [hrest])).inPlace _ _

/-- A tag is plain characters between two angle brackets. -/
theorem sound_of_mem_tags {t : String} (h : t ∈ tags) : Sound t.toList := by
  obtain ⟨body, hbody, ht⟩ := List.mem_map.1 h
  have plain : ∀ body ∈ tagBodies, AllPlain body.toList := by decide
  have hplain := plain body hbody
  have form : t.toList = '<' :: (body.toList ++ ['>']) := by simp [← ht]
  intro before c after hsplit
  have whole := hsplit
  rw [form] at hsplit
  -- `c` is the opening bracket, the closing one, or plain.
  cases before with
  | nil =>
      obtain ⟨rfl, rfl⟩ := List.cons.inj hsplit
      exact ⟨by decide, fun _ => ⟨t, h, [], (List.append_nil _).trans whole⟩, nofun, nofun⟩
  | cons d before =>
      obtain ⟨-, hrest⟩ := List.cons.inj hsplit
      rcases List.eq_nil_or_concat after with rfl | ⟨more, e, rfl⟩
      · obtain ⟨-, hc⟩ := List.append_inj' hrest rfl
        cases hc
        exact ⟨by decide, nofun, fun _ => ⟨t, h, [], whole⟩, nofun⟩
      · have hmiddle : body.toList ++ ['>'] = (before ++ c :: more) ++ [e] := by
          simpa using hrest
        obtain ⟨hmiddle, -⟩ := List.append_inj' hmiddle rfl
        exact (hplain c (by simp [hmiddle])).inPlace _ _

theorem sound_join {l : List String} (h : ∀ s ∈ l, Sound s.toList) :
    Sound (String.join l).toList := by
  induction l with
  | nil =>
      intro before c after h
      simp at h
  | cons s l ih =>
      obtain ⟨hs, hl⟩ := List.forall_mem_cons.1 h
      rw [String.join_cons, String.toList_append]
      exact hs.append (ih hl)

/-- A letter over another is tags around letters. -/
theorem sound_of_mem_overlays {s : String} (h : s ∈ overlays) : Sound s.toList := by
  have form : ∀ s ∈ overlays, ∃ parts ∈ [
      ["<span style=\"position:relative\">", "T", "<span style=\"position: absolute; left: 0\">",
        "ž", "</span>", "</span>"],
      ["<span style=\"position:relative\">", "M",
        "<span style=\"position: relative; left: -0.4em\">", "K", "</span>", "</span>"]],
      s = String.join parts ∧ ∀ part ∈ parts, part ∈ tags ∨ AllPlain part.toList := by
    decide
  obtain ⟨parts, -, rfl, hparts⟩ := form s h
  refine sound_join fun part hpart => ?_
  rcases hparts part hpart with htag | hplain
  · exact sound_of_mem_tags htag
  · exact hplain.sound

/-- The tag of an ink is a tag. -/
theorem mem_tags_of_mem_inkTags {s : String} (h : s ∈ inkTags) : s ∈ tags := by
  obtain ⟨css, hcss, rfl⟩ := List.mem_map.1 h
  refine List.mem_map.2 ⟨"font color=" ++ css, ?_, ?_⟩
  · exact List.mem_append_right _ (List.mem_map.2 ⟨css, hcss, rfl⟩)
  · apply String.ext
    simp

theorem Piece.sound {s : String} (h : Piece s) : Sound s.toList := by
  cases h with
  | @character c hc =>
      have hall : AllPlain [c] := by simpa [AllPlain] using hc
      simpa using hall.sound
  | entity hs => exact sound_of_mem_entities hs
  | paragraph => exact sound_of_mem_tags (by decide)
  | ink hs => exact sound_of_mem_tags (mem_tags_of_mem_inkTags hs)
  | overlay hs => exact sound_of_mem_overlays hs

theorem Consists.sound {s : String} (h : Consists s) : Sound s.toList := by
  obtain ⟨pieces, hpieces, rfl⟩ := h
  exact sound_join fun s hs => (hpieces s hs).sound

/-! ## The character set -/

/-- What is put in the place of a code consists of pieces. -/
theorem consists_of_substitution {c : UInt8} {s : String} (h : Charset.substitution c = some s) :
    Consists s := by
  unfold Charset.substitution at h
  split at h
  · have listed : ∀ e ∈ Charset.entities, e.2 ∈ entities := by decide
    obtain ⟨_, _, hsplit, -⟩ := List.lookup_eq_some_iff.1 h
    have hmem : (c, s) ∈ Charset.entities := by simp [hsplit]
    exact (Piece.entity (listed _ hmem)).consists
  · have listed : ∀ s ∈ Charset.block, s ∈ overlays ∨ AllPlain s.toList := by decide
    rcases listed s (List.mem_of_getElem? h) with hover | hplain
    · exact (Piece.overlay hover).consists
    · exact hplain.consists

/-- The other visible codes are plain characters. -/
theorem plain_latin {c : UInt8} (hc : 32 ≤ c) (h : Charset.substitution c = none) :
    Plain (Charset.latin c) := by
  have other : ∀ d : UInt8, Charset.substitution d ≠ none → (Charset.latin c).toNat ≠ d.toNat := by
    intro d hd heq
    rw [Charset.toNat_latin] at heq
    obtain rfl := UInt8.toNat_inj.1 heq
    exact hd h
  refine ⟨?_, other 127 (by decide), ?_, ?_, ?_⟩
  · rw [Charset.toNat_latin]
    exact UInt8.le_iff_toNat_le.1 hc
  · exact fun hand => other 38 (by decide) (by rw [hand]; rfl)
  · exact fun hless => other 60 (by decide) (by rw [hless]; rfl)
  · exact fun hgreater => other 62 (by decide) (by rw [hgreater]; rfl)

theorem consists_glyph {c : UInt8} (hc : 32 ≤ c) : Consists (Charset.glyph c) := by
  unfold Charset.glyph
  cases h : Charset.substitution c with
  | some s => exact consists_of_substitution h
  | none => exact (Piece.character (plain_latin hc h)).consists

end Markup

/-! ## Texts -/

namespace Text

open Markup (Consists Sound Piece)

variable {m : Snapshot} {part : Section} {p next : Nat} {text : String}

/-- Only tokens that can be written stand in a snapshot. -/
theorem StandsAt.wellFormed {l : List Token} (h : StandsAt m p l next) :
    ∀ t ∈ l, t.WellFormed := by
  induction h with
  | nil => simp
  | cons ht _ ih => exact List.forall_mem_cons.2 ⟨(Token.spans_iff.1 ht).1, ih⟩

/-- A space consists of pieces. -/
theorem consists_space : Consists " " :=
  (Piece.character (c := ' ') (by decide)).consists

theorem consists_segment {before : List Token} {t : Token} (ht : t.WellFormed) :
    ∀ s ∈ t.segments before, Consists s.text := by
  have wrapped : ∀ {content : String}, Consists content →
      ∀ s ∈ (if Wraps before content then [Segment.gap, .fragment content]
        else [.fragment content]), Consists s.text := by
    intro content hcontent
    split
    · simpa [Segment.text] using ⟨consists_space, hcontent⟩
    · simpa [Segment.text] using hcontent
  cases t with
  | visible c => exact wrapped (Markup.consists_glyph ht)
  | newline => exact wrapped consists_space
  | paragraph => exact wrapped Piece.paragraph.consists
  | ink c =>
      intro s hs
      obtain ⟨content, htag, rfl⟩ : ∃ content, Token.tag? (.ink c) = some content ∧
          Segment.tag content = s := by
        simpa [Token.segments, Token.fragment?] using hs
      rw [Layout.tag?_ink, Option.map_eq_some_iff] at htag
      obtain ⟨css, hcss, rfl⟩ := htag
      exact (Piece.ink (List.mem_map.2 ⟨css, List.mem_of_getElem? hcss, rfl⟩)).consists
  | paper c => simp [Token.segments, Token.fragment?, Token.tag?]
  | control c => simp [Token.segments, Token.fragment?, Token.tag?]

theorem consists_joined_segmentsAfter {l : List Token} (hl : ∀ t ∈ l, t.WellFormed)
    (before : List Token) : Consists (joined (segmentsAfter before l)) := by
  induction l generalizing before with
  | nil => exact Markup.consists_empty
  | cons t l ih =>
      obtain ⟨ht, hl⟩ := List.forall_mem_cons.1 hl
      rw [segmentsAfter, joined_append]
      refine Consists.append (Markup.consists_join ?_) (ih hl _)
      simpa using consists_segment ht

/-- Whatever is stored, a text that is read consists of pieces of markup, and
no character of it is out of place. -/
theorem read_markup (h : (read m part p).result = .ok (text, next)) :
    Consists text ∧ Sound text.toList := by
  obtain ⟨l, hl, rfl⟩ := read_eq_ok_iff_standsAt.1 h
  have hconsists : Consists (render l) := by
    -- Segment by segment, wherever the gaps are.
    rw [render_eq_joined]
    exact consists_joined_segmentsAfter hl.wellFormed []
  exact ⟨hconsists, hconsists.sound⟩

/-- The codes of `<b>`, an ink and a glyph with a letter over another. -/
def bracketedTokens : List Token :=
  [.visible 60, .visible 98, .visible 62, .ink 2, .visible 145]

/-- A text that tries to bring a tag of its own. -/
def bracketedImage : Snapshot :=
  ⟨#[195, 157, 193, 239, 253, 110, 224]⟩

/-- What it is read as. -/
def bracketedText : String :=
  "&lt;b&gt;<font color=#f00>" ++
    "<span style=\"position:relative\">T<span style=\"position: absolute; left: 0\">ž</span></span>"

theorem read_markup_bracketed :
    (read bracketedImage .messages 0).result = .ok (bracketedText, 7) ∧
      Consists bracketedText ∧ Sound bracketedText.toList := by
  have hread : (read bracketedImage .messages 0).result =
      .ok (render bracketedTokens, 0 + (bytes bracketedTokens).length) :=
    read_of_holds ⟨by decide, by decide⟩ (by decide)
  have htext : render bracketedTokens = bracketedText := by decide
  rw [htext] at hread
  exact ⟨hread, read_markup hread⟩

end Text
end Adventure
