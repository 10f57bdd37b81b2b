/-
# TOML documents can be read back

No two documents have the same text.  Each part is told by its text and by
what may come behind it: a scalar by a quote or its digits, an array by its
brackets, an entry by the end of its line, a run of entries by the empty line
in front of a block.  An element of an array of tables is told from a table
by the second bracket, since no key begins with one.

The main statement is `Document.text_injective`.  It does not matter whether a
document is one that TOML allows.
-/
import Adventure.Proofs.Numeral
import Adventure.Proofs.Toml.Strings
import Adventure.Toml.Document

namespace Adventure
namespace Toml

open Numeral (decimal delimits_decimal decimal_ne_nil isDigit_of_mem_decimal)

/-! ## Values -/

/-- What a scalar begins with. -/
def BeginsScalar (c : Char) : Prop :=
  IsQuote c ∨ c.isDigit = true

instance : DecidablePred BeginsScalar :=
  fun _ => inferInstanceAs (Decidable (_ ∨ _))

theorem not_isQuote_of_isDigit {c : Char} (h : c.isDigit = true) : ¬ IsQuote c := by
  rintro (rfl | rfl)
  · exact absurd h (by decide)
  · exact absurd h (by decide)

/-- No string is a decimal. -/
theorem string_ne_decimal (s : String) (n : Nat) (u v : List Char) :
    (Toml.string s).toList ++ u ≠ decimal n ++ v := by
  intro h
  have hstring := avoids_string (P := fun c => c.isDigit = true)
    (fun c hquote hdigit => not_isQuote_of_isDigit hdigit hquote) s u
  obtain ⟨c, w, hw⟩ := List.exists_cons_of_ne_nil (decimal_ne_nil n)
  rw [h, hw, List.cons_append, avoids_cons] at hstring
  exact hstring (isDigit_of_mem_decimal (hw ▸ List.mem_cons_self))

theorem delimits_scalar : Delimits (fun s : Scalar => s.text.toList) (Avoids BeginsScalar) := by
  intro a b u v hu hv heq
  cases a with
  | string s =>
      cases b with
      | string t =>
          obtain ⟨rfl, rfl⟩ :=
            delimits_string (hu.mono fun _ => .inl) (hv.mono fun _ => .inl) heq
          exact ⟨rfl, rfl⟩
      | integer n => exact absurd heq (string_ne_decimal s n u v)
  | integer n =>
      cases b with
      | string t => exact absurd heq.symm (string_ne_decimal t n v u)
      | integer k =>
          obtain ⟨rfl, rfl⟩ :=
            delimits_decimal (hu.mono fun _ => .inr) (hv.mono fun _ => .inr) heq
          exact ⟨rfl, rfl⟩

/-- No scalar begins with anything else. -/
theorem not_begins_scalar {x : Char} (hx : ¬ BeginsScalar x) (s : Scalar) (u : List Char) :
    ¬ Begins x (s.text.toList ++ u) := by
  have other : ∀ c, BeginsScalar c → c ≠ x := fun c hc h => hx (h ▸ hc)
  have avoids : Avoids (· = x) (s.text.toList ++ u) := by
    cases s with
    | string s => exact avoids_string (fun c hc => other c (.inl hc)) s u
    | integer n =>
        exact avoids_append (decimal_ne_nil n) fun c hc =>
          other c (.inr (isDigit_of_mem_decimal hc))
  exact avoids.not_begins rfl

/-- An array is over at the first bracket that is not in a string. -/
theorem delimits_array :
    Delimits (fun items : List Scalar => (Value.array items).text.toList) fun _ => True := by
  have items : Delimits
      (fun items : List Scalar => ", ".toList.intercalate (items.map fun s => s.text.toList))
      (Begins ']') := by
    refine delimits_scalar.intercalate ?sep ?stop ?more ?item
    case sep => exact fun u => avoids_cons.2 (by decide)
    case stop => exact fun u hu => hu.avoids (by decide)
    case more => exact fun u => begins_cons.not.2 (by decide)
    case item => exact fun s u => not_begins_scalar (by decide) s u
  intro l l' u v hu hv heq
  refine (items.marked ['[']).closed [']'] (fun u => begins_cons.2 rfl) hu hv ?_
  simpa [Value.text, Function.comp_def] using heq

theorem delimits_value : Delimits (fun v : Value => v.text.toList) (Avoids BeginsScalar) := by
  -- No scalar begins with a bracket.
  have mixed : ∀ s items u v, (Value.scalar s).text.toList ++ u ≠
      (Value.array items).text.toList ++ v := by
    intro s items u v h
    refine not_begins_scalar (x := '[') (by decide) s u ?_
    rw [show s.text.toList ++ u = (Value.array items).text.toList ++ v from h]
    simp [Value.text, Begins]
  intro a b u v hu hv heq
  cases a with
  | scalar s =>
      cases b with
      | scalar t =>
          obtain ⟨rfl, rfl⟩ := delimits_scalar hu hv heq
          exact ⟨rfl, rfl⟩
      | array items => exact absurd heq (mixed s items u v)
  | array items =>
      cases b with
      | scalar t => exact absurd heq.symm (mixed t items v u)
      | array items' =>
          obtain ⟨rfl, rfl⟩ := delimits_array trivial trivial heq
          exact ⟨rfl, rfl⟩

/-! ## Entries -/

/-- What a key begins with. -/
theorem not_begins_key {x : Char} (hx : ¬ (IsQuote x ∨ isBare x = true)) (s : String)
    (u : List Char) : ¬ Begins x ((key s).toList ++ u) :=
  Avoids.not_begins (avoids_key (P := (· = x)) (fun _ hc h => hx (h ▸ hc)) s u) rfl

/-- An entry is over at the end of its line. -/
theorem delimits_entry : Delimits (fun e : Entry => e.text.toList) fun _ => True := by
  have value : Delimits (fun v : Value => " = ".toList ++ (v.text.toList ++ ['\n']))
      fun _ => True :=
    (delimits_value.closed ['\n'] fun u => avoids_cons.2 (by decide)).marked " = ".toList
  have parts := (delimits_key.pair value fun v u _ => avoids_cons.2 (by decide)).comp
    (f := fun e : Entry => (e.key, e.value)) fun e e' h => by
      cases e
      cases e'
      cases h
      rfl
  intro e e' u v hu hv heq
  refine parts hu hv ?_
  simpa [Entry.text] using heq

theorem not_begins_entry {x : Char} (hx : ¬ (IsQuote x ∨ isBare x = true)) (e : Entry)
    (u : List Char) : ¬ Begins x (e.text.toList ++ u) := by
  have h := not_begins_key hx e.key (" = ".toList ++ (e.value.text.toList ++ ('\n' :: u)))
  simpa [Entry.text] using h

/-- What may stand behind entries: nothing, or an empty line. -/
def EndsEntries (u : List Char) : Prop :=
  u = [] ∨ Begins '\n' u

theorem toList_entriesText (entries : List Entry) :
    (entriesText entries).toList = entries.flatMap fun e => e.text.toList := by
  rw [entriesText, toList_foldl_append]
  simp

theorem delimits_entries : Delimits (fun l => (entriesText l).toList) EndsEntries := by
  have entries : Delimits (fun l : List Entry => l.flatMap fun e => e.text.toList) EndsEntries :=
    delimits_entry.flatMap (fun _ _ => trivial) (fun _ _ => trivial) fun e u h => by
      rcases h with h | h
      · exact absurd h (by simp [Entry.text])
      · exact not_begins_entry (by decide) e u h
  simpa only [toList_entriesText] using entries

/-! ## Blocks -/

/-- The keys of a path. -/
def pathText (path : List String) : List Char :=
  ".".toList.intercalate (path.map fun k => (key k).toList)

theorem delimits_path : Delimits pathText (Begins ']') := by
  refine delimits_key.intercalate ?sep ?stop ?more ?item
  case sep => exact fun u => avoids_cons.2 (by decide)
  case stop => exact fun u hu => hu.avoids (by decide)
  case more => exact fun u => begins_cons.not.2 (by decide)
  case item => exact fun k u => not_begins_key (by decide) k u

theorem not_begins_path {x : Char} (hx : ¬ (IsQuote x ∨ isBare x = true)) (path : List String)
    {u : List Char} (hu : ¬ Begins x u) : ¬ Begins x (pathText path ++ u) := by
  cases path with
  | nil => exact hu
  | cons k path =>
      rw [pathText, List.map_cons, intercalate_cons, List.append_assoc]
      exact not_begins_key hx k _

/-- The header of a table, or of an element of an array of tables. -/
def headerText (element : Bool) (path : List String) : List Char :=
  if element then ['[', '['] ++ (pathText path ++ [']', ']', '\n'])
  else ['['] ++ (pathText path ++ [']', '\n'])

theorem toList_header (b : Block) : b.header.toList = headerText b.element b.path := by
  unfold Block.header headerText pathText
  split <;> simp [Function.comp_def]

/-- A header tells its path, and whether it is that of an element. -/
theorem delimits_header :
    Delimits (fun h : Bool × List String => headerText h.1 h.2) fun _ => True := by
  -- No path begins with a bracket.
  have mixed : ∀ path path' u v, headerText false path ++ u ≠ headerText true path' ++ v := by
    intro path path' u v h
    refine not_begins_path (x := '[') (by decide) path (u := ']' :: '\n' :: u)
      (begins_cons.not.2 (by decide)) ?_
    simp only [headerText, Bool.false_eq_true, if_false, if_true, List.cons_append,
      List.append_assoc, List.nil_append, List.cons.injEq, true_and] at h
    rw [h]
    exact begins_cons.2 rfl
  rintro ⟨element, path⟩ ⟨element', path'⟩ u v hu hv heq
  cases element with
  | false =>
      cases element' with
      | false =>
          have table := (delimits_path.closed [']', '\n']
            fun u => begins_cons.2 rfl).marked ['[']
          obtain ⟨rfl, rfl⟩ := table hu hv heq
          exact ⟨rfl, rfl⟩
      | true => exact absurd heq (mixed path path' u v)
  | true =>
      cases element' with
      | false => exact absurd heq.symm (mixed path' path v u)
      | true =>
          have element := (delimits_path.closed [']', ']', '\n']
            fun u => begins_cons.2 rfl).marked ['[', '[']
          obtain ⟨rfl, rfl⟩ := element hu hv heq
          exact ⟨rfl, rfl⟩

/-- A block is over where another one begins, behind an empty line. -/
theorem delimits_block : Delimits (fun b : Block => b.text.toList) EndsEntries := by
  have parts := ((delimits_header.pair delimits_entries fun _ _ _ => trivial).comp
    (f := fun b : Block => ((b.element, b.path), b.entries)) fun b b' h => by
      cases b
      cases b'
      cases h
      rfl).marked ['\n']
  intro b b' u v hu hv heq
  refine parts hu hv ?_
  simpa [Block.text, toList_header] using heq

/-! ## Documents -/

theorem toList_text (d : Document) :
    d.text.toList = (entriesText d.root).toList ++ d.blocks.flatMap fun b => b.text.toList :=
  toList_foldl_append Block.text d.blocks (entriesText d.root)

/-- No two documents have one text. -/
theorem Document.text_injective : Function.Injective Document.text := by
  have blocks : Delimits (fun l : List Block => l.flatMap fun b => b.text.toList) fun u => u = [] :=
    delimits_block.flatMap (fun b u => .inr (by simp [Block.text])) (fun u => .inl)
      fun b u h => by simp [Block.text] at h
  have parts := (delimits_entries.pair blocks fun blocks u hu => by
    cases blocks with
    | nil => exact .inl hu
    | cons b blocks => exact .inr (by simp [Block.text])).comp
      (f := fun d : Document => (d.root, d.blocks)) fun d d' h => by
        cases d
        cases d'
        cases h
        rfl
  intro d d' h
  refine parts.injective rfl ?_
  simp only [← toList_text, h]

end Toml
end Adventure
