/-
# The records of a vocabulary

The records of a vocabulary are five bytes each, so that the record number
`k` stands at `place start k`; `wordOf` and `tokenOf` say what it holds.  The
table is over at the first token that is 0.  The same word may stand in
several records, and it does so as soon as they differ in nothing but the
white space around it.

The main statement is `read_records`: the words are the distinct ones in
front of the end, in the order in which they are met first, and each has the
token of the last record that it stands in.  A table without an end fails at
the first token that is missing, and the characters of a word are never the
ones to fail.
-/
import Adventure.Proofs.Blank
import Adventure.Proofs.OrderedMap
import Adventure.Proofs.Tables
import Mathlib.Order.Bounds.Basic
import Mathlib.Order.Monotone.Defs

namespace Adventure
namespace Vocabulary

/-! ## Records -/

/-- Where the record number `k` stands. -/
def place (start k : Nat) : Nat :=
  start + (wordLength + 1) * k

/-- The token of the record number `k`, where the snapshot has one. -/
def tokenOf (m : Snapshot) (start k : Nat) : Option UInt8 :=
  m.get? (place start k + wordLength)

/-- The characters in front of the token: those whose numbers are 255 less the
bytes of the record number `k`. -/
def charactersOf (m : Snapshot) (start k : Nat) : List Char :=
  (m.bytes.extract (place start k) (place start k + wordLength)).toList.map fun b =>
    Charset.latin (255 - b)

/-- The word of the record number `k`. -/
def wordOf (m : Snapshot) (start k : Nat) : String :=
  String.ofList (Blank.trimList (charactersOf m start k))

/-- The record at `p` does not end the table, and it gives this word this token. -/
def RecordAt (m : Snapshot) (p : Nat) (e : String × UInt8) : Prop :=
  ∃ s : Stored, e = (spell s.word, s.token) ∧ m.Holds p s.bytes

variable {m : Snapshot} {start k : Nat} {e : String × UInt8} {f : Fault}

theorem iterate_eq_place (start k : Nat) :
    (fun q => q + (wordLength + 1))^[k] start = place start k :=
  Records.iterate_stride _ _ _

/-- The records stand in their order. -/
theorem place_strictMono (start : Nat) : StrictMono (place start) := by
  intro j k hjk
  exact Nat.add_lt_add_left (Nat.mul_lt_mul_of_pos_left hjk (Nat.succ_pos _)) start

theorem Stored.length_bytes (s : Stored) : s.bytes.length = wordLength + 1 := by
  rw [bytes, List.length_append, s.length_word, List.length_singleton]

/-- A record that does not end the table stands where its token is another than 0. -/
theorem recordAt_iff :
    RecordAt m (place start k) e ↔
      e.1 = wordOf m start k ∧ tokenOf m start k = some e.2 ∧ e.2 ≠ 0 := by
  have characters : ∀ {word : List UInt8}, place start k + wordLength ≤ m.size →
      word.length = wordLength → m.Holds (place start k) word → spell word = wordOf m start k := by
    intro word hsize hlen hheld
    obtain ⟨hlen', hheld'⟩ := Snapshot.holds_extract hsize
    rw [hheld.unique hheld' (hlen.trans hlen'.symm), wordOf, charactersOf]
    simp only [spell, Charset.code_eq]
  constructor
  · rintro ⟨⟨word, token, hlen, hne⟩, rfl, hheld⟩
    obtain ⟨hword, htoken⟩ := Snapshot.holds_append.1 hheld
    have h0 : tokenOf m start k = some token := by simpa [tokenOf, hlen] using htoken
    have hsize := Nat.le_of_lt (Snapshot.lt_size_of_get? h0)
    exact ⟨characters hsize hlen hword, h0, hne⟩
  · obtain ⟨word, token⟩ := e
    rintro ⟨rfl, h0, hne⟩
    have hsize := Nat.le_of_lt (Snapshot.lt_size_of_get? h0)
    obtain ⟨hlen, hheld⟩ := Snapshot.holds_extract hsize
    refine ⟨⟨_, token, hlen, hne⟩, rfl, Snapshot.holds_append.2 ⟨hheld, ?_⟩⟩
    rw [hlen]
    exact Snapshot.holds_cons.2 ⟨h0, Snapshot.holds_nil⟩

theorem exists_recordAt_iff :
    (∃ e, RecordAt m (place start k) e) ↔ ∃ t, tokenOf m start k = some t ∧ t ≠ 0 := by
  constructor
  · rintro ⟨e, h⟩
    exact ⟨e.2, (recordAt_iff.1 h).2⟩
  · rintro ⟨t, ht⟩
    exact ⟨(wordOf m start k, t), recordAt_iff.2 ⟨rfl, ht⟩⟩

/-- The records of a table stand five bytes apart. -/
theorem words_places (hm : m.size < addressLimit) :
    (words m).Places (fun q => q + (wordLength + 1)) (RecordAt m) where
  record := by
    intro p e
    constructor
    · rintro ⟨k, h⟩
      exact (wordAt_eq_record_iff.1 h).2.2
    · rintro ⟨s, he, hheld⟩
      have hle := hheld.le_size (by simp [Stored.bytes])
      rw [s.length_bytes] at hle
      exact ⟨wordLength, wordAt_eq_record_iff.2 ⟨by omega, rfl, s, he, hheld⟩⟩
  behind := by
    intro p e k h
    obtain ⟨-, rfl, -⟩ := wordAt_eq_record_iff.1 h
    rfl

/-! ## The whole table -/

/-- A vocabulary is read exactly where its records lead to a token 0. -/
theorem read_eq_ok_iff_records (hm : m.size < addressLimit) {v : Vocabulary} :
    (read m start).result = .ok v ↔
      ∃ l, (∀ k e, l[k]? = some e → RecordAt m (place start k) e) ∧
        tokenOf m start l.length = some 0 ∧ v.Collects l := by
  simp only [read_eq_ok_iff, (words_places hm).passes_iff, iterate_eq_place,
    OrderedMap.collects_iff]
  constructor
  · rintro ⟨l, q, ⟨hl, rfl⟩, hend, hv⟩
    exact ⟨l, hl, hend, hv⟩
  · rintro ⟨l, hl, hend, hv⟩
    exact ⟨l, _, ⟨hl, rfl⟩, hend, hv⟩

/-- Records lead up to the first token that is 0, and no further. -/
theorem length_of_records {l : List (String × UInt8)}
    (hl : ∀ k e, l[k]? = some e → RecordAt m (place start k) e)
    (hend : tokenOf m start l.length = some 0) :
    IsLeast {k | tokenOf m start k = some 0} l.length := by
  refine ⟨hend, fun k hk => Nat.le_of_not_lt fun hlt => ?_⟩
  obtain ⟨-, htoken, hne⟩ := recordAt_iff.1 (hl k _ (List.getElem?_eq_getElem hlt))
  rw [show tokenOf m start k = some 0 from hk] at htoken
  exact hne (Option.some.inj htoken).symm

/-- A vocabulary is at fault exactly where its first missing token belongs,
when no token in front of that ends it. -/
theorem read_eq_error_iff (hm : m.size < addressLimit) :
    (read m start).result = .error f ↔
      (∀ k, tokenOf m start k ≠ some 0) ∧
        ∃ k, IsLeast {k | m.size ≤ place start k + wordLength} k ∧
          f = .malformed .vocabulary (place start k + wordLength) := by
  have walk := (words_places hm).walk_eq_error_iff (p := start) (f := f)
  simp only [iterate_eq_place, exists_recordAt_iff] at walk
  constructor
  · intro h
    obtain ⟨k, hrecords, hs⟩ := walk.1 (Reading.error_of_bind (fun _ => ⟨_, rfl⟩) h)
    obtain ⟨hmissing, rfl⟩ := (wordAt_eq_error_iff hm).1 hs
    refine ⟨fun j hj => ?_, k, ⟨hmissing, fun j hj => Nat.le_of_not_lt fun hlt => ?_⟩, rfl⟩
    · rcases Nat.lt_or_ge j k with hlt | hge
      · obtain ⟨t, ht, hne⟩ := hrecords j hlt
        rw [hj] at ht
        exact hne (Option.some.inj ht).symm
      · have hinside : place start j + wordLength < m.size := Snapshot.lt_size_of_get? hj
        have := (place_strictMono start).monotone hge
        omega
    · obtain ⟨t, ht, -⟩ := hrecords j hlt
      exact Nat.not_lt_of_le hj (Snapshot.lt_size_of_get? ht)
  · rintro ⟨hopen, k, ⟨hmissing, hleast⟩, rfl⟩
    refine Reading.bind_eq_error_iff.2 (.inl (walk.2 ⟨k, fun j hj => ?_, ?_⟩))
    · obtain ⟨t, ht⟩ : ∃ t, tokenOf m start j = some t :=
        Snapshot.exists_get? (Nat.lt_of_not_le fun hle => Nat.not_le_of_lt hj (hleast hle))
      refine ⟨t, ht, ?_⟩
      rintro rfl
      exact hopen j ht
    · exact (wordAt_eq_error_iff hm).2 ⟨hmissing, rfl⟩

theorem words_of_records {l : List (String × UInt8)}
    (hl : ∀ k e, l[k]? = some e → RecordAt m (place start k) e) :
    l.map Prod.fst = (List.range l.length).map (wordOf m start) := by
  refine List.ext_getElem (by simp) fun k hk _ => ?_
  rw [List.length_map] at hk
  rw [List.getElem_map, List.getElem_map, List.getElem_range]
  exact (recordAt_iff.1 (hl k _ (List.getElem?_eq_getElem hk))).1

/-- The last pair of a word comes from the last record with that word. -/
theorem lastAt_iff_of_records {l : List (String × UInt8)} {w : String} {t : UInt8}
    (hl : ∀ k e, l[k]? = some e → RecordAt m (place start k) e) :
    OrderedMap.LastAt l w t k ↔
      IsGreatest {j | j < l.length ∧ wordOf m start j = w} k ∧ tokenOf m start k = some t := by
  have record : ∀ j (hj : j < l.length),
      l[j].1 = wordOf m start j ∧ tokenOf m start j = some l[j].2 ∧ l[j].2 ≠ 0 := by
    intro j hj
    exact recordAt_iff.1 (hl j _ (List.getElem?_eq_getElem hj))
  constructor
  · rintro ⟨hk, hlast⟩
    obtain ⟨hword, htoken, -⟩ := recordAt_iff.1 (hl k _ hk)
    have hlt := (List.getElem?_eq_some_iff.1 hk).1
    refine ⟨⟨⟨hlt, hword.symm⟩, ?_⟩, htoken⟩
    rintro j ⟨hj, rfl⟩
    refine Nat.le_of_not_lt fun hkj => ?_
    exact hlast j _ hkj (List.getElem?_eq_getElem hj) (record j hj).1
  · rintro ⟨⟨⟨hlt, rfl⟩, hgreatest⟩, htoken⟩
    obtain ⟨hword, htoken', -⟩ := record k hlt
    refine ⟨?_, fun j e hkj he hw => ?_⟩
    · rw [htoken] at htoken'
      rw [List.getElem?_eq_getElem hlt, ← hword, Option.some.inj htoken']
    · have hj := (List.getElem?_eq_some_iff.1 he).1
      have hle := hgreatest ⟨hj, (recordAt_iff.1 (hl j e he)).1.symm.trans hw⟩
      exact Nat.not_lt_of_le hle hkj

/-! ## Reading by the records -/

/-- What reading a vocabulary at `start` comes to, told by its records. -/
structure ReadsByRecords (m : Snapshot) (start : Nat) : Prop where
  /-- A vocabulary is read where one of its tokens is 0. -/
  succeeds : (∃ v, (read m start).result = .ok v) ↔ ∃ N, tokenOf m start N = some 0
  /-- Its words are those in front of the first such token, in the order in
  which they are met first, each of them once. -/
  keys : ∀ v N, (read m start).result = .ok v → IsLeast {k | tokenOf m start k = some 0} N →
    v.keys.Nodup ∧ v.keys = ((List.range N).map (wordOf m start)).eraseDups
  /-- Each word has the token of the last record that it stands in. -/
  tokens : ∀ v N, (read m start).result = .ok v → IsLeast {k | tokenOf m start k = some 0} N →
    ∀ w t, v.get? w = some t ↔
      ∃ k, IsGreatest {j | j < N ∧ wordOf m start j = w} k ∧ tokenOf m start k = some t
  /-- A word is the characters of its record without the white space around them. -/
  word : ∀ k, Blank.Trims (charactersOf m start k) (wordOf m start k).toList
  /-- Records have one word when they differ in the white space around it only. -/
  same : ∀ j k, wordOf m start j = wordOf m start k ↔
    ∃ w, Blank.Pads w (charactersOf m start j) ∧ Blank.Pads w (charactersOf m start k)
  /-- Where no token is 0, the first one that is missing is at fault. -/
  fault : ∀ f, (read m start).result = .error f ↔
    (∀ k, tokenOf m start k ≠ some 0) ∧
      ∃ k, IsLeast {k | m.size ≤ place start k + wordLength} k ∧
        f = .malformed .vocabulary (place start k + wordLength)
  /-- The characters of a word whose token is there are never at fault. -/
  characters : ∀ k t, tokenOf m start k = some t →
    ∃ stored, (m.slice .vocabulary (place start k) wordLength).result = .ok stored

/-- Vocabularies are read by their records, from every place of every
snapshot whose bytes all have an address. -/
theorem read_records (m : Snapshot) (start : Nat) (hm : m.size < addressLimit) :
    ReadsByRecords m start := by
  have records : ∀ {v N}, (read m start).result = .ok v →
      IsLeast {k | tokenOf m start k = some 0} N →
      ∃ l, (∀ k e, l[k]? = some e → RecordAt m (place start k) e) ∧ l.length = N ∧
        v.Collects l := by
    intro v N hv hN
    obtain ⟨l, hl, hend, hcollects⟩ := (read_eq_ok_iff_records hm).1 hv
    exact ⟨l, hl, (length_of_records hl hend).unique hN, hcollects⟩
  refine ⟨?succeeds, ?keys, ?tokens, ?word, ?same, ?fault, ?characters⟩
  case succeeds =>
    constructor
    · rintro ⟨v, hv⟩
      obtain ⟨l, -, hend, -⟩ := (read_eq_ok_iff_records hm).1 hv
      exact ⟨l.length, hend⟩
    · rintro ⟨N, hN⟩
      cases h : (read m start).result with
      | ok v => exact ⟨v, rfl⟩
      | error f => exact absurd hN (((read_eq_error_iff hm).1 h).1 N)
  case keys =>
    intro v N hv hN
    obtain ⟨l, hl, rfl, hcollects⟩ := records hv hN
    refine ⟨OrderedMap.nodup_keys v, ?_⟩
    rw [hcollects.keys, words_of_records hl]
  case tokens =>
    intro v N hv hN w t
    obtain ⟨l, hl, rfl, hcollects⟩ := records hv hN
    simp only [hcollects.last, lastAt_iff_of_records hl]
  case word =>
    intro k
    rw [wordOf, String.toList_ofList]
    exact Blank.trimList_eq_iff.1 rfl
  case same =>
    intro j k
    rw [wordOf, wordOf, String.ofList_inj, Blank.trimList_eq_trimList_iff]
  case fault => exact fun f => read_eq_error_iff hm
  case characters =>
    intro k t ht
    have hinside : place start k + wordLength < m.size := Snapshot.lt_size_of_get? ht
    obtain ⟨hlen, hheld⟩ := Snapshot.holds_extract (Nat.le_of_lt hinside)
    have hlimit := Nat.lt_trans hinside hm
    exact ⟨_, Snapshot.slice_eq_ok_iff.2 ⟨hlimit, Nat.le_of_lt hinside, hlen, hheld⟩⟩

/-- A table behind one other byte: `N` three times in different white space,
another word between them, and a record whose token ends the table. -/
def spacedTable : Snapshot :=
  ⟨#[7, 177, 223, 223, 223, 1, 177, 176, 173, 171, 2, 223, 177, 95, 223, 3,
     246, 223, 177, 245, 4, 179, 176, 176, 180, 0]⟩

theorem read_records_spaced :
    spacedTable.size < addressLimit ∧ ReadsByRecords spacedTable 1 ∧
      IsLeast {k | tokenOf spacedTable 1 k = some 0} 4 := by
  have hsize : spacedTable.size < addressLimit := by decide
  refine ⟨hsize, read_records spacedTable 1 hsize, by decide, ?_⟩
  intro k hk
  refine Nat.le_of_not_lt fun hlt => ?_
  have open4 : ∀ j < 4, tokenOf spacedTable 1 j ≠ some 0 := by decide
  exact open4 k hlt hk

end Vocabulary
end Adventure
