/-
# Looking words up, and listing the words of a token

`Agrees` puts the two directions side by side: a query finds the token that
its upper case is mapped to, a token has the words that are mapped to it, and
each word belongs to one token.  Nothing but that no word stands in the table
twice is needed for it, and a vocabulary is a map that sees to that itself;
so the two directions agree after every change of it as well.

The words of a decoded vocabulary are trimmed, but they keep their case.  One
that upper case leaves alone is found when it is typed as it is stored.  No
other is found at all: what a query is looked up as is in upper case, and in
upper case it stays (`Upper.text_text`).

The main statement is `lookup_wordsOf`.
-/
import Adventure.Database.Edit
import Adventure.Proofs.Upper
import Adventure.Proofs.WellFormed

namespace Adventure

namespace Vocabulary

variable {v : Vocabulary} {word query : String} {token : UInt8}

theorem find?_eq_some_iff : v.find? query = some token ↔ (typed query, token) ∈ v.entries :=
  OrderedMap.get?_eq_some_iff

theorem mem_withToken : word ∈ v.withToken token ↔ (word, token) ∈ v.entries := by
  simp [withToken]

theorem withToken_sublist (v : Vocabulary) (token : UInt8) :
    (v.withToken token).Sublist v.keys :=
  List.filter_sublist.map Prod.fst

/-- A word has one token. -/
theorem existsUnique_mem_withToken (h : word ∈ v.keys) :
    ∃! token, word ∈ v.withToken token := by
  obtain ⟨⟨_, token⟩, hmem, rfl⟩ := List.mem_map.1 h
  refine ⟨token, mem_withToken.2 hmem, fun other hother => ?_⟩
  have hfound := OrderedMap.get?_eq_some_iff.2 hmem
  rw [OrderedMap.get?_eq_some_iff.2 (mem_withToken.1 hother)] at hfound
  exact Option.some.inj hfound

/-- Trimming leaves a word as it is. -/
theorem Word.trim_eq (h : Word word) : Blank.trim word = word := by
  rw [Blank.trim, Blank.trimList_eq_self h.head h.last, String.ofList_toList]

/-- What a query is looked up as has no other upper case. -/
theorem upper_typed (query : String) : Upper.text (typed query) = typed query :=
  Upper.text_text _

/-- A word with another upper case is not what a query is looked up as. -/
theorem typed_ne (h : Upper.text word ≠ word) (query : String) : typed query ≠ word := by
  rintro rfl
  exact h (upper_typed query)

end Vocabulary

namespace Database

open Vocabulary

variable {d : Database} {word : String} {token : UInt8}

/-! ## Changes of the vocabulary -/

/-- A change of the vocabulary: a word gets a token, or it is removed. -/
inductive Revision where
  | setToken (word : String) (token : UInt8)
  | removeWord (word : String)

/-- The database with a change made. -/
def revise (d : Database) : Revision → Database
  | .setToken word token => d.setToken word token
  | .removeWord word => d.removeWord word

/-- The database with changes made, one after the other. -/
def reviseAll (d : Database) (revisions : List Revision) : Database :=
  revisions.foldl revise d

/-! ## The two directions -/

/-- A query finds the token of its upper case without the white space around it.
A token has the words that are mapped to it, in table order and each of them
once, and the words of all tokens are the whole table, each word under one. -/
structure Agrees (d : Database) : Prop where
  lookup : ∀ query token, d.lookup query = some token ↔
    (Upper.text (Blank.trim query), token) ∈ d.vocabulary.entries
  words : ∀ word token, word ∈ d.wordsOf token ↔ (word, token) ∈ d.vocabulary.entries
  order : ∀ token, (d.wordsOf token).Sublist d.vocabulary.keys
  once : ∀ token, (d.wordsOf token).Nodup
  partition : ∀ word ∈ d.vocabulary.keys, ∃! token, word ∈ d.wordsOf token
  back : ∀ query token, d.lookup query = some token →
    Upper.text (Blank.trim query) ∈ d.wordsOf token

theorem agrees (d : Database) : Agrees d where
  lookup _ _ := find?_eq_some_iff
  words _ _ := mem_withToken
  order token := withToken_sublist d.vocabulary token
  once token := d.vocabulary.nodup_keys.sublist (withToken_sublist d.vocabulary token)
  partition _ := existsUnique_mem_withToken
  back _ _ h := mem_withToken.2 (find?_eq_some_iff.1 h)

/-! ## Words as they are stored -/

/-- A stored word in upper case is found as it is stored.  Any other is not what
some query is looked up as, and every query finds the same without it. -/
structure Reached (d : Database) (word : String) (token : UInt8) : Prop where
  upper : Upper.text word = word → d.lookup word = some token
  other : Upper.text word ≠ word → ∀ query,
    Upper.text (Blank.trim query) ≠ word ∧ (d.removeWord word).lookup query = d.lookup query

theorem reached_of_wellFormed (hd : d.vocabulary.WellFormed)
    (h : (word, token) ∈ d.vocabulary.entries) : Reached d word token where
  upper hupper := by
    have htyped : typed word = word := by
      rw [typed, (hd.word _ h).trim_eq, hupper]
    refine find?_eq_some_iff.2 ?_
    rw [htyped]
    exact h
  other hother query := by
    have hne := typed_ne hother query
    exact ⟨hne, OrderedMap.get?_erase_of_ne hne⟩

/-! ## The vocabulary of a database -/

/-- What looking up and listing have to do with each other. -/
structure Answers (d : Database) : Prop where
  /-- Trimming takes away the white space at both ends, and nothing else. -/
  trim : ∀ query : String, Blank.Trims query.toList (Blank.trim query).toList
  upper : ∀ query, Upper.text (Upper.text query) = Upper.text query
  agrees : ∀ revisions, Agrees (d.reviseAll revisions)
  decoded : ∀ m o, (decode m o).result = .ok d →
    ∀ word token, (word, token) ∈ d.vocabulary.entries → Reached d word token

/-- Looking a word up and listing the words of a token agree, in every database
and after every change of its vocabulary; and the words of a decoded database
are found exactly when upper case leaves them alone. -/
theorem lookup_wordsOf (d : Database) : Answers d where
  trim query := by
    rw [Blank.trim, String.toList_ofList]
    exact Blank.trimList_eq_iff.1 rfl
  upper := Upper.text_text
  agrees revisions := agrees (d.reviseAll revisions)
  decoded _ _ h _ _ := reached_of_wellFormed (decode_wellFormed h).vocabulary

/-- An image with the words N, n and ß. -/
def mixedImage : Snapshot :=
  ⟨#[0, 0, 17, 0, 18, 0, 19, 0, 20, 0, 21, 0, 0,
     3, 1, 1, 0, 40, 0, 40, 0, 33, 0, 33, 0, 33, 0, 33, 0, 50, 0, 0, 0,
     35, 0, 65, 224, 65, 9, 255,
     7, 0, 45, 0, 0, 3, 0, 255, 4, 255,
     177, 223, 223, 223, 9, 145, 223, 223, 223, 8, 32, 223, 223, 223, 7, 0, 0, 0, 0, 0]⟩

theorem lookup_wordsOf_mixed :
    ∃ d, (decode mixedImage ⟨0, 0⟩).result = .ok d ∧
      d.vocabulary.entries = [("N", 9), ("n", 8), ("ß", 7)] ∧ Answers d := by
  have succeeds : (decode mixedImage ⟨0, 0⟩).result.toOption.map (fun d => d.vocabulary.entries) =
      some [("N", 9), ("n", 8), ("ß", 7)] := by decide +kernel
  cases h : (decode mixedImage ⟨0, 0⟩).result with
  | error f =>
      rw [h] at succeeds
      cases succeeds
  | ok d =>
      rw [h] at succeeds
      exact ⟨d, rfl, Option.some.inj succeeds, lookup_wordsOf d⟩

end Database
end Adventure
