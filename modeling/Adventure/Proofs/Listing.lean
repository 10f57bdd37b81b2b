/-
# One line for each item

The listing has six parts.  Each is a heading and one line for each of its
items; a location is followed by the lines of its exits.  `parts` pairs every
location with its own exits and every object with its own position, and no
item is without one, because a decoded database has as many of the one as of
the other.

`Lists text lines` says that a text is these lines: each has a line feed
behind it and none inside.  The main statement is `listing_lists`.  Whether the
listing of a decoded database is its lines depends on the words alone, for a
decoded text has no line feed, whatever was stored.
-/
import Adventure.Database.Listing
import Adventure.Proofs.Resolution
import Adventure.Proofs.Rules.Line
import Adventure.Proofs.Text.Markup
import Mathlib.Algebra.GroupWithZero.Nat

namespace Adventure

/-! ## Lines -/

/-- A text without a line feed. -/
def OneLine (s : String) : Prop :=
  '\n' ∉ s.toList

instance (s : String) : Decidable (OneLine s) :=
  inferInstanceAs (Decidable ('\n' ∉ s.toList))

theorem OneLine.append {s t : String} (hs : OneLine s) (ht : OneLine t) : OneLine (s ++ t) := by
  rw [OneLine, String.toList_append, List.mem_append, not_or]
  exact ⟨hs, ht⟩

theorem oneLine_join {l : List String} (h : ∀ s ∈ l, OneLine s) : OneLine (String.join l) := by
  rw [OneLine, String.toList_join, List.mem_flatMap]
  rintro ⟨s, hs, hfeed⟩
  exact h s hs hfeed

theorem oneLine_decimal (n : Nat) : OneLine (toString n) :=
  Numeral.newline_notMem_decimal n

theorem oneLine_column (width n : Nat) : OneLine (Numeral.column width n) :=
  Numeral.newline_notMem_column width n

theorem oneLine_params (params : List UInt8) :
    OneLine (String.join (params.map fun p => " " ++ toString p.toNat)) := by
  refine oneLine_join fun s hs => ?_
  obtain ⟨p, -, rfl⟩ := List.mem_map.1 hs
  exact OneLine.append (by decide) (oneLine_decimal _)

theorem Condition.oneLine_text (c : Condition) : OneLine c.text := by
  have opcode : OneLine ("C" ++ toString c.opcode.toNat) :=
    OneLine.append (by decide) (oneLine_decimal _)
  exact ((opcode.append (by decide)).append (oneLine_decimal _)).append (oneLine_params _)

theorem Action.oneLine_text (a : Action) : OneLine a.text := by
  have opcode : OneLine ("A" ++ toString a.opcode.toNat) :=
    OneLine.append (by decide) (oneLine_decimal _)
  exact opcode.append (oneLine_params _)

theorem Command.oneLine_bracketed {items : List String} (h : ∀ i ∈ items, OneLine i) :
    OneLine (bracketed items) := by
  rw [OneLine, Rules.toList_bracketed, List.mem_flatMap]
  rintro ⟨i, hi, hfeed⟩
  exact h i hi (by simpa using hfeed)

theorem Command.oneLine_text (c : Command) : OneLine c.text := by
  have conditions : OneLine (bracketed (c.conditions.map Condition.text)) := by
    refine oneLine_bracketed fun i hi => ?_
    obtain ⟨x, -, rfl⟩ := List.mem_map.1 hi
    exact x.oneLine_text
  have actions : OneLine (bracketed (c.actionList.map Action.text)) := by
    refine oneLine_bracketed fun i hi => ?_
    obtain ⟨a, -, rfl⟩ := List.mem_map.1 hi
    exact a.oneLine_text
  have words : OneLine (Numeral.column 3 c.word1.toNat ++ " " ++ Numeral.column 3 c.word2.toNat) :=
    ((oneLine_column _ _).append (by decide)).append (oneLine_column _ _)
  exact (((words.append (by decide)).append conditions).append (by decide)).append actions

/-- A text is these lines: behind each there is a line feed, and inside none. -/
structure Lists (text : String) (lines : List String) : Prop where
  text : text.toList = lines.flatMap fun line => line.toList ++ ['\n']
  single : ∀ line ∈ lines, OneLine line

/-- A text is of one list of lines only. -/
theorem Lists.unique {text : String} {lines lines' : List String} (h : Lists text lines)
    (h' : Lists text lines') : lines = lines' := by
  have line : ∀ {s t : String} {u v : List Char}, OneLine s → OneLine t →
      s.toList ++ '\n' :: u = t.toList ++ '\n' :: v → s = t ∧ u = v := by
    intro s t u v hs ht heq
    have notFeed : ∀ {s : String}, OneLine s → ∀ c ∈ s.toList, c ≠ '\n' :=
      fun hs c hc heq => hs (heq ▸ hc)
    obtain ⟨hst, hrest⟩ := run_append_inj (notFeed hs) (notFeed ht) (by simp) (by simp) heq
    exact ⟨String.toList_inj.1 hst, (List.cons.inj hrest).2⟩
  have heq := h.text.symm.trans h'.text
  have hsingle := h.single
  have hsingle' := h'.single
  clear h h'
  induction lines generalizing lines' with
  | nil =>
      cases lines' with
      | nil => rfl
      | cons t lines' => simp at heq
  | cons s lines ih =>
      cases lines' with
      | nil => simp at heq
      | cons t lines' =>
          obtain ⟨hs, hlines⟩ := List.forall_mem_cons.1 hsingle
          obtain ⟨ht, hlines'⟩ := List.forall_mem_cons.1 hsingle'
          obtain ⟨rfl, hrest⟩ := line hs ht (by simpa using heq)
          rw [ih hrest hlines hlines']

namespace Database

theorem toList_joinLines (lines : List String) :
    (joinLines lines).toList = lines.flatMap fun line => line.toList ++ ['\n'] := by
  simp only [joinLines, String.append_assoc, toList_foldl_append]
  simp

theorem lists_joinLines_iff {lines : List String} :
    Lists (joinLines lines) lines ↔ ∀ line ∈ lines, OneLine line :=
  ⟨Lists.single, fun h => ⟨toList_joinLines lines, h⟩⟩

/-! ## The lines of a database -/

variable {m : Snapshot} {o : Options} {d : Database}

/-- The six parts: a heading, and the lines of the items in table order. -/
def parts (d : Database) : List (String × List String) :=
  [("Locations:",
      (d.locations.zip d.connections).zipIdx.flatMap fun x =>
        numberedLine x.2 x.1.1 :: x.1.2.entries.map exitLine),
    ("Objects (" ++ toString d.carried.toNat ++ " carried):",
      (d.objects.zip d.positions).zipIdx.map fun x =>
        Numeral.column 4 x.2 ++ ": [" ++ Numeral.column 3 x.1.2.toNat ++ "] " ++ x.1.1),
    ("Messages:", d.messages.zipIdx.map fun x => numberedLine x.2 x.1),
    ("Vocabulary:", d.vocabulary.entries.map wordLine),
    ("Responses:", (Chain.listOf d.responses).map commandLine),
    ("Processes:", (Chain.listOf d.processes).map commandLine)]

/-- The parts one behind the other, with an empty line between them. -/
def itemLines (d : Database) : List String :=
  [""].intercalate (d.parts.map fun part => part.1 :: part.2)

/-- Where every item has a companion, the lines of an item may be written with it. -/
theorem numbered_eq_zip {β : Type} {lines : Nat → String → List String}
    (paired : Nat → String → β → List String) {items : List String} {others : List β}
    (hlen : items.length ≤ others.length)
    (h : ∀ i s b, others[i]? = some b → lines i s = paired i s b) :
    numbered lines items = (items.zip others).zipIdx.flatMap fun x => paired x.2 x.1.1 x.1.2 := by
  have hitems : items = (items.zip others).map Prod.fst := (List.map_fst_zip hlen).symm
  conv_lhs => rw [numbered, ← List.flatMap_def, hitems, List.zipIdx_map, List.flatMap_map]
  refine List.flatMap_congr fun x hx => ?_
  have hpair := List.getElem?_zip_eq_some.1 (List.mem_zipIdx_iff_getElem?.1 hx)
  exact h x.2 x.1.1 x.1.2 hpair.2

/-- The listing has the lines of the items: no location goes without exits,
and no object without a position. -/
theorem listingLines_eq (hexits : d.connections.length = d.locations.length)
    (hpositions : d.positions.length = d.objects.length) : d.listingLines = d.itemLines := by
  have locations : numbered d.locationLines d.locations =
      (d.locations.zip d.connections).zipIdx.flatMap fun x =>
        numberedLine x.2 x.1.1 :: x.1.2.entries.map exitLine := by
    refine numbered_eq_zip (fun i s (e : Exits) => numberedLine i s :: e.entries.map exitLine)
      hexits.ge fun i s e he => ?_
    rw [locationLines, exits?, he]
    rfl
  have objects : numbered (fun i text => [d.objectLine i text]) d.objects =
      (d.objects.zip d.positions).zipIdx.map fun x =>
        Numeral.column 4 x.2 ++ ": [" ++ Numeral.column 3 x.1.2.toNat ++ "] " ++ x.1.1 := by
    rw [List.map_eq_flatMap]
    refine numbered_eq_zip (fun i s (b : UInt8) =>
      [Numeral.column 4 i ++ ": [" ++ Numeral.column 3 b.toNat ++ "] " ++ s])
      hpositions.ge fun i s b hb => ?_
    rw [objectLine, hb]
    rfl
  have messages : numbered (fun i text => [numberedLine i text]) d.messages =
      d.messages.zipIdx.map fun x => numberedLine x.2 x.1 := by
    rw [numbered, ← List.flatMap_def, List.map_eq_flatMap]
  have heading : s!"Objects ({d.carried.toNat} carried):" =
    "Objects (" ++ toString d.carried.toNat ++ " carried):" := rfl
  rw [listingLines, locations, objects, messages, heading]
  simp [itemLines, parts]

/-! ## Line feeds -/

/-- A decoded text has no line feed: none of its characters is a control. -/
theorem oneLine_of_readAll {part : Section} {p count : Nat} {texts : List String}
    (h : (Text.readAll m part p count).result = .ok texts) : ∀ text ∈ texts, OneLine text := by
  obtain ⟨-, next, hpacks⟩ := Text.readAll_eq_ok_iff.1 h
  refine hpacks.forall fun _ _ text _ hread hfeed => ?_
  obtain ⟨before, after, hsplit⟩ := List.append_of_mem hfeed
  have shown := ((Text.read_markup hread).2 before '\n' after hsplit).shown
  exact absurd shown (by decide)

theorem oneLine_numberedLine {i : Nat} {text : String} (h : OneLine text) :
    OneLine (numberedLine i text) :=
  ((oneLine_column 4 i).append (by decide)).append h

theorem oneLine_exitLine (e : UInt8 × UInt8) : OneLine (exitLine e) := by
  have direction : OneLine ("        exit " ++ toString e.1.toNat) :=
    OneLine.append (by decide) (oneLine_decimal _)
  exact (direction.append (by decide)).append (oneLine_decimal _)

/-- Behind the token and the space, the line of a word is the word. -/
theorem oneLine_wordLine_iff {e : String × UInt8} : OneLine (wordLine e) ↔ OneLine e.1 := by
  constructor
  · intro h hfeed
    exact h (by simp [wordLine, hfeed])
  · exact fun h => ((oneLine_column 4 _).append (by decide)).append h

theorem mem_intercalate {α : Type} {sep : List α} {ls : List (List α)} {x : α}
    (h : x ∈ sep.intercalate ls) : x ∈ sep ∨ ∃ l ∈ ls, x ∈ l := by
  cases ls with
  | nil => simp at h
  | cons l ls =>
      rw [intercalate_cons, List.mem_append, List.mem_flatMap] at h
      rcases h with h | ⟨l', hl', h⟩
      · exact .inr ⟨l, List.mem_cons_self, h⟩
      · exact (List.mem_append.1 h).imp_right fun h => ⟨l', List.mem_cons_of_mem _ hl', h⟩

theorem mem_intercalate_of_mem {α : Type} {sep l : List α} {ls : List (List α)} {x : α}
    (hl : l ∈ ls) (hx : x ∈ l) : x ∈ sep.intercalate ls := by
  cases ls with
  | nil => cases hl
  | cons l' ls =>
      rw [intercalate_cons, List.mem_append, List.mem_flatMap]
      rcases List.mem_cons.1 hl with rfl | hl
      · exact .inl hx
      · exact .inr ⟨l, hl, List.mem_append_right _ hx⟩

/-- The lines have no line feed of their own exactly when the words have none. -/
theorem oneLine_itemLines_iff
    (htexts : ∀ text ∈ d.locations ++ d.objects ++ d.messages, OneLine text) :
    (∀ line ∈ d.itemLines, OneLine line) ↔ ∀ e ∈ d.vocabulary.entries, OneLine e.1 := by
  simp only [List.forall_mem_append] at htexts
  obtain ⟨⟨hlocations, hobjects⟩, hmessages⟩ := htexts
  constructor
  · intro h e he
    have hpart : "Vocabulary:" :: d.vocabulary.entries.map wordLine ∈
        d.parts.map fun part => part.1 :: part.2 := by simp [parts]
    have hline : wordLine e ∈ "Vocabulary:" :: d.vocabulary.entries.map wordLine :=
      List.mem_cons_of_mem _ (List.mem_map_of_mem he)
    exact oneLine_wordLine_iff.1 (h _ (mem_intercalate_of_mem hpart hline))
  · intro hwords
    have items : ∀ part ∈ d.parts, OneLine part.1 ∧ ∀ line ∈ part.2, OneLine line := by
      simp only [parts, List.forall_mem_cons, List.forall_mem_map, List.forall_mem_flatMap]
      refine ⟨⟨by decide, ?locations⟩, ⟨?heading, ?objects⟩, ⟨by decide, ?messages⟩,
        ⟨by decide, ?words⟩, ⟨by decide, ?responses⟩, ⟨by decide, ?processes⟩, by simp⟩
      case locations =>
        intro x hx
        refine ⟨oneLine_numberedLine (hlocations _ ?_), fun e _ => oneLine_exitLine e⟩
        exact (List.of_mem_zip (List.fst_mem_of_mem_zipIdx hx)).1
      case heading => exact (OneLine.append (by decide) (oneLine_decimal _)).append (by decide)
      case objects =>
        intro x hx
        have position : OneLine (Numeral.column 4 x.2 ++ ": [" ++ Numeral.column 3 x.1.2.toNat) :=
          ((oneLine_column 4 _).append (by decide)).append (oneLine_column 3 _)
        refine (position.append (by decide)).append (hobjects _ ?_)
        exact (List.of_mem_zip (List.fst_mem_of_mem_zipIdx hx)).1
      case messages =>
        intro x hx
        exact oneLine_numberedLine (hmessages _ (List.fst_mem_of_mem_zipIdx hx))
      case words => exact fun e he => oneLine_wordLine_iff.2 (hwords e he)
      case responses => exact fun c _ => OneLine.append (by decide) c.oneLine_text
      case processes => exact fun c _ => OneLine.append (by decide) c.oneLine_text
    intro line hline
    rcases mem_intercalate hline with hempty | ⟨l, hl, hline⟩
    · rw [List.mem_singleton.1 hempty]
      decide
    · obtain ⟨part, hpart, rfl⟩ := List.mem_map.1 hl
      obtain ⟨hheading, hlines⟩ := items part hpart
      rcases List.mem_cons.1 hline with rfl | hline
      · exact hheading
      · exact hlines line hline

/-! ## The listing -/

/-- A location has its own line and one for each of its exits. -/
theorem length_locationLines (l : List (String × Exits)) (k : Nat) :
    ((l.zipIdx k).flatMap fun x => numberedLine x.2 x.1.1 :: x.1.2.entries.map exitLine).length =
      l.length + (l.map fun x => x.2.size).sum := by
  induction l generalizing k with
  | nil => rfl
  | cons x l ih =>
      rw [List.zipIdx_cons, List.flatMap_cons, List.length_append, ih (k + 1)]
      simp only [List.map_cons, List.sum_cons, List.length_cons, List.length_map, OrderedMap.size]
      omega

theorem length_itemLines (hexits : d.connections.length = d.locations.length)
    (hpositions : d.positions.length = d.objects.length) :
    d.itemLines.length = 11 + d.locations.length + (d.connections.map OrderedMap.size).sum +
      d.objects.length + d.messages.length + d.vocabulary.size +
      (Chain.listOf d.responses).length + (Chain.listOf d.processes).length := by
  have exits : ((d.locations.zip d.connections).map fun x => x.2.size) =
      d.connections.map OrderedMap.size := by
    conv_rhs => rw [← List.map_snd_zip hexits.le, List.map_map]
    rfl
  have locations := length_locationLines (d.locations.zip d.connections) 0
  rw [exits, List.length_zip, hexits, Nat.min_self] at locations
  have objects : (d.objects.zip d.positions).length = d.objects.length := by
    rw [List.length_zip, hpositions, Nat.min_self]
  simp only [itemLines, parts, List.map_cons, List.map_nil, List.intercalate_cons_cons,
    List.intercalate_singleton, List.length_append, List.length_cons, List.length_nil,
    List.length_map, List.length_zipIdx, locations, objects, OrderedMap.size]
  omega

/-- What the listing of a decoded database is. -/
structure ListsItems (m : Snapshot) (o : Options) (d : Database) : Prop where
  exits_per_location : d.connections.length = d.locations.length
  position_per_object : d.positions.length = d.objects.length
  /-- The positions are bytes of the snapshot, where its header says. -/
  stored : ∃ anchor h, IsLeast {p | o.searchStart ≤ p ∧ Signature.Anchored m p} anchor ∧
    Header.StandsBehind m anchor h ∧ m.Holds h.positions d.positions
  /-- No text has a line feed. -/
  texts : ∀ text ∈ d.locations ++ d.objects ++ d.messages, OneLine text
  /-- The listing is the lines of the items unless a word has a line feed. -/
  lines : Lists d.listing d.itemLines ↔ ∀ e ∈ d.vocabulary.entries, OneLine e.1
  /-- It is no other lines. -/
  unique : ∀ lines lines', Lists d.listing lines → Lists d.listing lines' → lines = lines'
  /-- Six headings, five empty lines, and a line for each item. -/
  count : d.itemLines.length = 11 + d.locations.length + (d.connections.map OrderedMap.size).sum +
    d.objects.length + d.messages.length + d.vocabulary.size +
    (Chain.listOf d.responses).length + (Chain.listOf d.processes).length

/-- The listing of a decoded database has one line for each item, under the
headings and in table order. -/
theorem listing_lists (h : (decode m o).result = .ok d) : ListsItems m o d := by
  obtain ⟨-, anchor, header, hanchor, hresolve, hr⟩ := decode_eq_ok_iff.1 h
  have hd := hr.wellFormed
  have texts : ∀ text ∈ d.locations ++ d.objects ++ d.messages, OneLine text := by
    simp only [List.forall_mem_append]
    exact ⟨⟨oneLine_of_readAll hr.locations, oneLine_of_readAll hr.objects⟩,
      oneLine_of_readAll hr.messages⟩
  refine
    { exits_per_location := hd.exits_per_location
      position_per_object := hd.position_per_object
      stored := ?stored
      texts := texts
      lines := ?lines
      unique := fun _ _ => Lists.unique
      count := length_itemLines hd.exits_per_location hd.position_per_object }
  case stored =>
    obtain ⟨-, -, -, hheld⟩ := Snapshot.slice_eq_ok_iff.1 hr.positions
    exact ⟨anchor, header, hanchor, Header.resolve_eq_ok_iff_standsBehind.1 hresolve, hheld⟩
  case lines =>
    rw [listing, listingLines_eq hd.exits_per_location hd.position_per_object,
      lists_joinLines_iff]
    exact oneLine_itemLines_iff texts

/-- An image with two locations, of which the second one has no exits. -/
def listedImage : Snapshot :=
  ⟨#[0, 0, 17, 0, 18, 0, 19, 0, 20, 0, 21, 0, 0,
     1, 1, 2, 1, 54, 0, 58, 0, 33, 0, 35, 0, 37, 0, 39, 0, 64, 0, 74, 0,
     41, 0, 43, 0, 49, 0, 50, 0,
     190, 224, 189, 224, 188, 249, 187, 224, 224,
     1, 0, 255, 255,
     7, 0, 59, 0, 0, 3, 0, 255, 4, 255,
     177, 223, 223, 223, 9, 0, 0, 0, 0, 0,
     252]⟩

/-- Its listing. -/
def listedText : String :=
  "Locations:\n   0: B\n        exit 1 -> 0\n   1: C D\n" ++
  "\nObjects (1 carried):\n   0: [252] A\n" ++
  "\nMessages:\n   0: \n" ++
  "\nVocabulary:\n   9 N\n" ++
  "\nResponses:\n    7   0 : [C3 0] => [A4]\n" ++
  "\nProcesses:\n"

theorem listing_lists_sample :
    ∃ d, (decode listedImage ⟨0, 0⟩).result = .ok d ∧ d.listing = listedText ∧
      Lists d.listing d.itemLines ∧ ListsItems listedImage ⟨0, 0⟩ d := by
  have listed : (decode listedImage ⟨0, 0⟩).result.toOption.map
      (fun d => (d.listing, d.vocabulary.entries)) = some (listedText, [("N", 9)]) := by
    decide +kernel
  cases h : (decode listedImage ⟨0, 0⟩).result with
  | error f =>
      rw [h] at listed
      cases listed
  | ok d =>
      rw [h] at listed
      obtain ⟨hlisting, hentries⟩ := Prod.mk.inj (Option.some.inj listed)
      have items := listing_lists h
      refine ⟨d, rfl, hlisting, items.lines.2 ?_, items⟩
      rw [show d.vocabulary.entries = [("N", 9)] from hentries]
      decide

end Database
end Adventure
