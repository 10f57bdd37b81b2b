/-
# Locality of the readers

A reader owns the bytes from the place where it begins to the last
terminator of what it reads, and everything that it reads is in them:
`Snapshot.Repeats` says that bytes of one snapshot stand in another one, at
another place, and what is read of them there is the same.  How many bytes a
reader owns is its `Extent`, which speaks of the bytes and not of the reader.

The main statement is `readers_relocate`, which holds of any two snapshots and
any two places.  The text is the reader to look at: behind a newline it looks
at the next byte, but a text has its end code still to come there, and so that
byte is its own.
-/
import Adventure.Proofs.Exits
import Adventure.Proofs.Rules.Codec
import Adventure.Proofs.Text.Grammar
import Adventure.Proofs.Vocabulary

namespace Adventure

/-- The `n` bytes of a snapshot from `p` on stand in another one from `p'` on. -/
def Snapshot.Repeats (m : Snapshot) (p n : Nat) (m' : Snapshot) (p' : Nat) : Prop :=
  ∀ i < n, m'.get? (p' + i) = m.get? (p + i)

variable {m m' : Snapshot} {part : Section} {p p' n k : Nat}

namespace Snapshot

/-- What follows `k` of the bytes follows them in the other snapshot too. -/
theorem Repeats.behind (same : m.Repeats p n m' p') {j : Nat} (hj : k + j ≤ n) :
    m.Repeats (p + k) j m' (p' + k) := by
  intro i hi
  rw [Nat.add_assoc, Nat.add_assoc]
  exact same (k + i) (by omega)

/-- A run inside the bytes is held by the other snapshot too. -/
theorem Repeats.holds (same : m.Repeats p n m' p') {bytes : List UInt8}
    (hk : k + bytes.length ≤ n) (h : m.Holds (p + k) bytes) : m'.Holds (p' + k) bytes := by
  intro i hi
  rw [← h i hi]
  exact same.behind hk i hi

theorem Repeats.code? (same : m.Repeats p n m' p') {i : Nat} (hi : i < n) :
    m'.code? (p' + i) = m.code? (p + i) := by
  rw [Snapshot.code?, Snapshot.code?, same i hi]

end Snapshot

/-! ## Texts -/

namespace Text

/-- The bytes that `count` texts at `p` own, their end codes among them. -/
def Extent (m : Snapshot) (p count n : Nat) : Prop :=
  ∃ ls : List (List Token), ls.length = count ∧ PackedAt m p ls (p + n)

/-- A token is moved with its bytes when there is one more behind it. -/
theorem Token.Spans.relocate {t : Token} (h : t.Spans m p (p + k)) (same : m.Repeats p n m' p')
    (hk : k < n) : t.Spans m' p' (p' + k) := by
  obtain ⟨ht, hlen, hheld, hend⟩ := Token.spans_iff.1 h
  have hlen : k = t.codes.length := Nat.add_left_cancel hlen
  have hbytes : 0 + t.bytes.length ≤ n := by
    rw [Token.bytes, List.length_map, ← hlen]
    omega
  refine Token.spans_iff.2 ⟨ht, by rw [hlen], same.holds (k := 0) hbytes hheld, ?_⟩
  intro hnewline
  obtain ⟨c, hc, hne⟩ := hend hnewline
  -- The byte behind a newline is the last one that is needed.
  have hone : k = 1 := by rw [hlen, hnewline]; rfl
  exact ⟨c, (same 1 (hone ▸ hk)).trans hc, hne⟩

/-- A text is moved with its bytes. -/
theorem StandsAt.relocate {l : List Token} {next : Nat} (h : StandsAt m p l next)
    (hnext : next = p + n) (same : m.Repeats p n m' p') : StandsAt m' p' l (p' + n) := by
  induction h generalizing n p' with
  | nil hend =>
      obtain rfl : 1 = n := Nat.add_left_cancel hnext
      exact .nil ((same.code? Nat.one_pos).trans hend)
  | @cons p q next t l ht hl ih =>
      obtain ⟨k, rfl⟩ := Nat.exists_eq_add_of_le (Nat.le_of_lt ht.inside.1)
      obtain ⟨j, rfl⟩ := Nat.exists_eq_add_of_lt hl.inside.1
      obtain rfl : k + (j + 1) = n := by omega
      rw [← Nat.add_assoc]
      have token : t.Spans m' p' (p' + k) := ht.relocate same (by omega)
      exact .cons token (ih rfl (same.behind (Nat.le_refl _)))

theorem PackedAt.le {ls : List (List Token)} {next : Nat} (h : PackedAt m p ls next) :
    p ≤ next := by
  induction h with
  | nil => exact Nat.le_refl _
  | cons hl _ ih => exact Nat.le_trans (Nat.le_of_lt hl.inside.1) ih

/-- Packed texts are moved with their bytes. -/
theorem PackedAt.relocate {ls : List (List Token)} {next : Nat} (h : PackedAt m p ls next)
    (hnext : next = p + n) (same : m.Repeats p n m' p') : PackedAt m' p' ls (p' + n) := by
  induction h generalizing n p' with
  | nil =>
      obtain rfl : 0 = n := Nat.add_left_cancel hnext
      exact .nil
  | cons hl hls ih =>
      obtain ⟨k, rfl⟩ := Nat.exists_eq_add_of_le (Nat.le_of_lt hl.inside.1)
      obtain ⟨j, rfl⟩ := Nat.exists_eq_add_of_le hls.le
      obtain rfl : k + j = n := by omega
      rw [← Nat.add_assoc]
      have first : StandsAt m' p' _ (p' + k) :=
        hl.relocate rfl fun i hi => same i (Nat.lt_add_right j hi)
      exact .cons first (ih rfl (same.behind (Nat.le_refl _)))

theorem read_relocate {text : String} {next : Nat}
    (h : (read m part p).result = .ok (text, next)) :
    ∃ n, next = p + n ∧ Extent m p 1 n ∧
      (m.Repeats p n m' p' → (read m' part p').result = .ok (text, p' + n)) := by
  obtain ⟨l, hl, rfl⟩ := read_eq_ok_iff_standsAt.1 h
  obtain ⟨n, rfl⟩ := Nat.exists_eq_add_of_le (Nat.le_of_lt hl.inside.1)
  refine ⟨n, rfl, ⟨[l], rfl, .cons hl .nil⟩, fun same => ?_⟩
  exact read_eq_ok_iff_standsAt.2 ⟨l, hl.relocate rfl same, rfl⟩

theorem exists_extent {count : Nat} {texts : List String}
    (h : (readAll m part p count).result = .ok texts) : ∃ n, Extent m p count n := by
  obtain ⟨ls, next, hlen, hls, -⟩ := readAll_eq_ok_iff_packedAt.1 h
  obtain ⟨n, rfl⟩ := Nat.exists_eq_add_of_le hls.le
  exact ⟨n, ls, hlen, hls⟩

theorem readAll_relocate {count : Nat} (h : Extent m p count n) (same : m.Repeats p n m' p') :
    (readAll m' part p' count).result = (readAll m part p count).result := by
  obtain ⟨ls, hlen, hls⟩ := h
  rw [readAll_eq_ok_iff_packedAt.2 ⟨ls, _, hlen, hls, rfl⟩]
  exact readAll_eq_ok_iff_packedAt.2 ⟨ls, _, hlen, hls.relocate rfl same, rfl⟩

end Text

/-! ## Conditions and actions -/

namespace Rules

/-- The bytes that a list of instructions at `p` owns, with the one that
closes it; `code` is an instruction as stored. -/
def Extent {α : Type} (Valid : α → Prop) (code : α → List UInt8) (m : Snapshot) (p n : Nat) :
    Prop :=
  ∃ l : List α, (∀ a ∈ l, Valid a) ∧ m.Holds p (l.flatMap code ++ [endOfList]) ∧
    n = (l.flatMap code ++ [endOfList]).length

/-- The bytes that the conditions at `p` own. -/
abbrev ConditionsExtent (m : Snapshot) (p n : Nat) : Prop :=
  Extent Condition.WellFormed Condition.bytes m p n

/-- The bytes that the actions at `p` own, in the known version. -/
abbrev ActionsExtent (m : Snapshot) (p n : Nat) : Prop :=
  Extent (Action.WellFormed Version.v0.arguments) Action.bytes m p n

theorem readConditions_relocate {l : List Condition} {next : Nat}
    (h : (readConditions m part p).result = .ok (l, next)) :
    ∃ n, next = p + n ∧ ConditionsExtent m p n ∧
      (m.Repeats p n m' p' → (readConditions m' part p').result = .ok (l, p' + n)) := by
  obtain ⟨hl, hheld, rfl⟩ := readConditions_eq_ok_iff_holds.1 h
  have hlen : (l.flatMap Condition.bytes ++ [endOfList]).length =
      (l.flatMap Condition.bytes).length + 1 := List.length_append
  refine ⟨_, Nat.add_assoc _ _ _, ⟨l, hl, hheld, hlen.symm⟩, fun same => ?_⟩
  have moved := same.holds (k := 0) (by rw [hlen, Nat.zero_add]) hheld
  exact readConditions_eq_ok_iff_holds.2 ⟨hl, moved, rfl⟩

theorem exists_actionsExtent {chain : Option (Chain Action)}
    (h : (readActions m part Version.v0.arguments p).result = .ok chain) :
    ∃ n, ActionsExtent m p n := by
  obtain ⟨l, hl, hheld, -⟩ := readActions_eq_ok_iff_holds.1 h
  exact ⟨_, l, hl, hheld, rfl⟩

theorem readActions_relocate (h : ActionsExtent m p n) (same : m.Repeats p n m' p') :
    (readActions m' part Version.v0.arguments p').result =
      (readActions m part Version.v0.arguments p).result := by
  obtain ⟨l, hl, hheld, rfl⟩ := h
  have moved := same.holds (k := 0) (Nat.le_of_eq (Nat.zero_add _)) hheld
  rw [readActions_eq_ok_iff_holds.2 ⟨l, hl, hheld, rfl⟩]
  exact readActions_eq_ok_iff_holds.2 ⟨l, hl, moved, rfl⟩

end Rules

/-! ## Exits -/

namespace Exits

/-- The bytes that the exits of `count` locations at `p` own. -/
def Extent (m : Snapshot) (p count n : Nat) : Prop :=
  ∃ rows : List (List (UInt8 × UInt8)), rows.length = count ∧ RowsSpan m p rows (p + n)

theorem RowsSpan.relocate {rows : List (List (UInt8 × UInt8))} (h : RowsSpan m p rows (p + n))
    (same : m.Repeats p n m' p') : RowsSpan m' p' rows (p' + n) := by
  obtain rfl : n = (rows.flatMap bytes).length := Nat.add_left_cancel h.extent
  exact ⟨h.directions, same.holds (k := 0) (by omega) h.held, rfl⟩

theorem exists_extent {count : Nat} {maps : List Exits}
    (h : (readAll m p count).result = .ok maps) : ∃ n, Extent m p count n := by
  obtain ⟨rows, e, hlen, hspan⟩ := exists_readAll_iff.1 ⟨maps, h⟩
  obtain rfl := hspan.extent
  exact ⟨_, rows, hlen, hspan⟩

theorem readAll_relocate {count : Nat} (h : Extent m p count n) (same : m.Repeats p n m' p') :
    (readAll m' p' count).result = (readAll m p count).result := by
  obtain ⟨rows, hlen, hspan⟩ := h
  have maps := OrderedMap.forall₂_collects_iff.2 (Eq.refl (rows.map OrderedMap.ofList))
  rw [readAll_eq_ok_iff_rows.2 ⟨rows, _, hlen, hspan, maps⟩]
  exact readAll_eq_ok_iff_rows.2 ⟨rows, _, hlen, hspan.relocate same, maps⟩

end Exits

/-! ## Words -/

namespace Vocabulary

/-- The bytes that the vocabulary at `p` owns: its records, up to the first
one whose token is 0 and with that token. -/
def Extent (m : Snapshot) (p n : Nat) : Prop :=
  ∃ N, IsLeast {k | tokenOf m p k = some 0} N ∧ p + n = place p (N + 1)

theorem RecordAt.relocate {e : String × UInt8} (h : RecordAt m (place p k) e)
    (hk : place p (k + 1) ≤ p + n) (same : m.Repeats p n m' p') :
    RecordAt m' (place p' k) e := by
  obtain ⟨s, rfl, hheld⟩ := h
  refine ⟨s, rfl, same.holds ?_ hheld⟩
  rw [s.length_bytes]
  exact Nat.le_of_add_le_add_left hk

theorem exists_extent (hm : m.size < addressLimit) {v : Vocabulary}
    (h : (read m p).result = .ok v) : ∃ n, Extent m p n := by
  obtain ⟨l, hl, hend, -⟩ := (read_eq_ok_iff_records hm).1 h
  exact ⟨_, l.length, length_of_records hl hend, rfl⟩

/-- A vocabulary is moved with its bytes, to a place that has an address. -/
theorem read_relocate (hm : m.size < addressLimit) (hm' : m'.size < addressLimit)
    {v : Vocabulary} (h : (read m p).result = .ok v) (hn : Extent m p n)
    (same : m.Repeats p n m' p') : (read m' p').result = .ok v := by
  obtain ⟨l, hl, hend, hv⟩ := (read_eq_ok_iff_records hm).1 h
  obtain ⟨N, hN, hplace⟩ := hn
  obtain rfl : l.length = N := (length_of_records hl hend).unique hN
  refine (read_eq_ok_iff_records hm').2 ⟨l, fun k e hk => ?_, ?_, hv⟩
  · have hlt : k < l.length := (List.getElem?_eq_some_iff.1 hk).1
    refine (hl k e hk).relocate ?_ same
    rw [hplace]
    exact (place_strictMono p).monotone (Nat.succ_le_succ (Nat.le_of_lt hlt))
  · have hlast : n = (wordLength + 1) * (l.length + 1) := Nat.add_left_cancel hplace
    have htoken : m'.get? (p' + ((wordLength + 1) * l.length + wordLength)) =
        m.get? (p + ((wordLength + 1) * l.length + wordLength)) := by
      refine same _ ?_
      rw [hlast, Nat.mul_succ]
      exact Nat.lt_succ_self _
    rw [tokenOf, place, Nat.add_assoc, htoken, ← Nat.add_assoc]
    exact hend

end Vocabulary

/-! ## All the readers -/

/-- Whatever is read of the one snapshot at `p` is read of the other one at
`p'` when the bytes that were read stand there. -/
structure Relocates (m : Snapshot) (p : Nat) (m' : Snapshot) (p' : Nat) : Prop where
  /-- One text, and the cursor behind its end code. -/
  text : ∀ part text next, (Text.read m part p).result = .ok (text, next) →
    ∃ n, next = p + n ∧ Text.Extent m p 1 n ∧
      (m.Repeats p n m' p' → (Text.read m' part p').result = .ok (text, p' + n))
  /-- Packed texts. -/
  texts : ∀ part count texts, (Text.readAll m part p count).result = .ok texts →
    (∃ n, Text.Extent m p count n) ∧ ∀ n, Text.Extent m p count n → m.Repeats p n m' p' →
      (Text.readAll m' part p' count).result = .ok texts
  /-- Conditions, and the cursor behind the byte that closes them. -/
  conditions : ∀ part l next, (Rules.readConditions m part p).result = .ok (l, next) →
    ∃ n, next = p + n ∧ Rules.ConditionsExtent m p n ∧
      (m.Repeats p n m' p' → (Rules.readConditions m' part p').result = .ok (l, p' + n))
  /-- Actions of the known version. -/
  actions : ∀ part chain,
    (Rules.readActions m part Version.v0.arguments p).result = .ok chain →
    (∃ n, Rules.ActionsExtent m p n) ∧ ∀ n, Rules.ActionsExtent m p n → m.Repeats p n m' p' →
      (Rules.readActions m' part Version.v0.arguments p').result = .ok chain
  /-- Exits of several locations. -/
  exits : ∀ count maps, (Exits.readAll m p count).result = .ok maps →
    (∃ n, Exits.Extent m p count n) ∧ ∀ n, Exits.Extent m p count n → m.Repeats p n m' p' →
      (Exits.readAll m' p' count).result = .ok maps
  /-- A vocabulary, in snapshots whose bytes all have an address. -/
  words : m.size < addressLimit → m'.size < addressLimit →
    ∀ v, (Vocabulary.read m p).result = .ok v →
    (∃ n, Vocabulary.Extent m p n) ∧ ∀ n, Vocabulary.Extent m p n → m.Repeats p n m' p' →
      (Vocabulary.read m' p').result = .ok v

/-- The readers are local: between any two snapshots and any two places, what
is read is moved with its bytes.  At one place of two snapshots this says that
the bytes in front of those and behind them have no part in it. -/
theorem readers_relocate (m : Snapshot) (p : Nat) (m' : Snapshot) (p' : Nat) :
    Relocates m p m' p' := by
  refine ⟨?text, ?texts, ?conditions, ?actions, ?exits, ?words⟩
  case text => exact fun part text next h => Text.read_relocate h
  case texts =>
    intro part count texts h
    refine ⟨Text.exists_extent h, fun n hn same => ?_⟩
    exact (Text.readAll_relocate hn same).trans h
  case conditions => exact fun part l next h => Rules.readConditions_relocate h
  case actions =>
    intro part chain h
    refine ⟨Rules.exists_actionsExtent h, fun n hn same => ?_⟩
    exact (Rules.readActions_relocate hn same).trans h
  case exits =>
    intro count maps h
    refine ⟨Exits.exists_extent h, fun n hn same => ?_⟩
    exact (Exits.readAll_relocate hn same).trans h
  case words =>
    intro hm hm' v h
    exact ⟨Vocabulary.exists_extent hm h, fun n hn same =>
      Vocabulary.read_relocate hm hm' h hn same⟩

end Adventure
