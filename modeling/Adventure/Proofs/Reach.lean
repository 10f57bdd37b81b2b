/-
# How far a decode reaches

The reach of a reading is the greatest sum of addresses that was formed on
its way, also when it failed.  Each read is done at a cursor that is `Near`
and adds at most 255 to it, the greatest number of objects; a reading that
does no more is `Within` the snapshot.  Reading one thing after another,
walking and packing keep to that, and so does a decode.

The main statement is `decode_reach`.  Sums of addresses are addresses as
long as every byte of the snapshot has one and half of the addresses are free,
and no run of bytes is refused because its end is no address.
-/
import Adventure.Proofs.Decode
import Adventure.Proofs.Offset
import Mathlib.Algebra.Group.Nat.Defs

namespace Adventure

open Snapshot (Near)

/-! ## Composed readings -/

namespace Reading

variable {α β : Type} {m : Snapshot}

/-- A composed reading reaches as far as those of its parts that were done. -/
theorem reach_bind_le_iff {r : Reading α} {next : α → Reading β} {bound : Nat} :
    (r >>= next).reach ≤ bound ↔
      r.reach ≤ bound ∧ ∀ a, r.result = .ok a → (next a).reach ≤ bound := by
  obtain ⟨result, events, reach⟩ := r
  cases result with
  | error f => simp [bind_error]
  | ok a => simp [bind_ok, after]

/-- No sum lies further than 255 behind the snapshot or behind the last
address that fits a word. -/
def Within (m : Snapshot) (r : Reading α) : Prop :=
  r.reach ≤ max m.size 65535 + 255

/-- What needs no reading is within every snapshot. -/
theorem within_pure (a : α) : (pure a : Reading α).Within m :=
  Nat.zero_le _

theorem within_record (e : Event) : (record e).Within m :=
  Nat.zero_le _

theorem Within.bind {r : Reading α} {next : α → Reading β} (h : r.Within m)
    (hnext : ∀ a, r.result = .ok a → (next a).Within m) : (r >>= next).Within m :=
  reach_bind_le_iff.2 ⟨h, hnext⟩

end Reading

/-! ## The bounded reads -/

namespace Snapshot

variable {m : Snapshot} {part : Section} {a k : Nat}

theorem Near.add_le (ha : m.Near a) (hk : k ≤ 255) : a + k ≤ max m.size 65535 + 255 :=
  Nat.add_le_add ha hk

theorem reach_byteAt : (m.byteAt part a k).reach = a + k := by
  unfold byteAt
  split <;> rfl

theorem reach_slice {len : Nat} : (m.slice part a len).reach = a + len := by
  unfold slice
  simp only
  split
  · split <;> rfl
  · rfl

theorem Near.within_byteAt (ha : m.Near a) (hk : k ≤ 255) : (m.byteAt part a k).Within m := by
  rw [Reading.Within, reach_byteAt]
  exact ha.add_le hk

theorem Near.within_wordAt (ha : m.Near a) (hk : k < 255) : (m.wordAt part a k).Within m := by
  refine (ha.within_byteAt (Nat.le_of_lt hk)).bind fun low _ => ?_
  refine Reading.Within.bind ?_ fun high _ => Reading.within_pure _
  rw [Reading.Within, reach_byteAt, Nat.add_assoc]
  exact ha.add_le hk

theorem Near.within_slice {len : Nat} (ha : m.Near a) (hlen : len ≤ 255) :
    (m.slice part a len).Within m := by
  rw [Reading.Within, reach_slice]
  exact ha.add_le hlen

end Snapshot

/-! ## Walks and packed tables -/

/-- Records end inside the snapshot, a terminator is at most 255 bytes long,
and the step at a near cursor is within the snapshot. -/
structure Records.Confined {α : Type} (m : Snapshot) (r : Records α) : Prop where
  record : ∀ p a k, (r.step p).result = .ok (.record a k) → p + (k + 1) ≤ m.size
  stop : ∀ p w, (r.step p).result = .ok (.stop w) → w ≤ 255
  step : ∀ p, m.Near p → (r.step p).Within m

namespace Records.Confined

variable {α : Type} {m : Snapshot} {r : Records α}

theorem walkAfter (h : r.Confined m) {p : Nat} (hp : m.Near p) (read : List α) :
    (r.walkAfter read p).Within m := by
  have here := h.step p hp
  match hs : r.step p with
  | ⟨.ok (.record a k), events, far⟩ =>
      have inside := r.inside p a k (by rw [hs])
      have hbehind : p + (k + 1) ≤ m.size := h.record p a k (by rw [hs])
      have hnear : m.Near (p + (k + 1)) := Snapshot.near_of_le hbehind
      have rest := walkAfter h hnear (a :: read)
      rw [hs] at here
      rw [r.walkAfter_record hs]
      exact Nat.max_le.2 ⟨Nat.max_le.2 ⟨here, hnear.add_le (Nat.zero_le _)⟩, rest⟩
  | ⟨.ok (.stop w), events, far⟩ =>
      have hw : w ≤ 255 := h.stop p w (by rw [hs])
      rw [hs] at here
      rw [r.walkAfter_stop hs]
      exact Nat.max_le.2 ⟨here, hp.add_le hw⟩
  | ⟨.error f, events, far⟩ =>
      rw [hs] at here
      rw [r.walkAfter_error hs]
      exact here
termination_by r.size - p

theorem walk (h : r.Confined m) {p : Nat} (hp : m.Near p) : (r.walk p).Within m :=
  h.walkAfter hp []

/-- The cursors that a walk gets to stay near. -/
theorem near (h : r.Confined m) {p : Nat} (hp : m.Near p) {q : Nat} {l : List α}
    (hpass : r.Passes p l q) : m.Near q :=
  hpass.cursor (fun p a k _ hs => Snapshot.near_of_le (h.record p a k hs)) hp

end Records.Confined

section Packed

variable {α : Type} {m : Snapshot} {item : (index p : Nat) → Reading (α × Nat)}

theorem within_packedAfter
    (next : ∀ index p a q, (item index p).result = .ok (a, q) → q ≤ m.size)
    (within : ∀ index p, m.Near p → (item index p).Within m) (read : List α) {index left p : Nat}
    (hp : m.Near p) : (packedAfter item read index left p).Within m := by
  induction left generalizing read index p with
  | zero =>
      rw [packedAfter_zero]
      exact Nat.zero_le _
  | succ left ih =>
      rw [packedAfter_succ]
      refine (within index p hp).bind fun out hout => ?_
      exact ih (out.1 :: read) (Snapshot.near_of_le (next _ _ _ _ hout))

theorem within_packed
    (next : ∀ index p a q, (item index p).result = .ok (a, q) → q ≤ m.size)
    (within : ∀ index p, m.Near p → (item index p).Within m) {count p : Nat} (hp : m.Near p) :
    (packed item count p).Within m :=
  within_packedAfter next within [] hp

end Packed

variable {m : Snapshot} {part : Section} {p : Nat}

/-! ## The marker -/

namespace Signature

/-- A search tries no place that is not inside the snapshot. -/
theorem search_le {reach : Nat} (h : reach ≤ max m.size 65535 + 255) :
    (search m p reach).2 ≤ max m.size 65535 + 255 := by
  fun_induction search m p reach with
  | case1 p reach hp far _ _ =>
      simp only [far, span]
      omega
  | case2 p reach hp far _ _ ih =>
      refine ih ?_
      simp only [far, span]
      omega
  | case3 p reach hp far _ =>
      simp only [far, span]
      omega
  | case4 p reach _ => exact h

theorem reach_locate (start : Nat) : (locate m start).reach = (search m start 0).2 := by
  unfold locate
  rcases search m start 0 with ⟨_ | anchor, far⟩
  · rfl
  · rfl

theorem within_locate (start : Nat) : (locate m start).Within m := by
  rw [Reading.Within, reach_locate]
  exact search_le (Nat.zero_le _)

theorem le_search (m : Snapshot) (p reach : Nat) : reach ≤ (search m p reach).2 := by
  fun_induction search m p reach with
  | case1 p reach _ far _ _ => exact Nat.le_max_left _ _
  | case2 p reach _ far _ _ ih => exact Nat.le_trans (Nat.le_max_left _ _) ih
  | case3 p reach _ far _ => exact Nat.le_max_left _ _
  | case4 p reach _ => exact Nat.le_refl _

/-- The search from `start` on comes to `p`: the marker would end inside the
snapshot, and it stands at no earlier place. -/
structure Tries (m : Snapshot) (start p : Nat) : Prop where
  start_le : start ≤ p
  inside : p + span < m.size
  before : ∀ q, start ≤ q → q < p → ¬ Anchored m q

/-- The places at which the marker is looked for are not behind the reach. -/
theorem Tries.le_search {q : Nat} (h : Tries m p q) (reach : Nat) :
    q + span ≤ (search m p reach).2 := by
  fun_induction search m p reach with
  | case1 p reach _ far hspan hmarks =>
      obtain rfl : q = p := by
        refine Nat.le_antisymm (Nat.le_of_not_lt fun hlt => ?_) h.start_le
        exact h.before p (Nat.le_refl p) hlt ⟨hspan, marks_iff.1 hmarks⟩
      exact Nat.le_max_right _ _
  | case2 p reach _ far hspan _ ih =>
      rcases Nat.eq_or_lt_of_le h.start_le with rfl | hlt
      · exact Nat.le_trans (Nat.le_max_right _ _) (Signature.le_search m (p + 1) far)
      · exact ih ⟨hlt, h.inside, fun x hx => h.before x (Nat.le_of_succ_le hx)⟩
  | case3 p reach _ far hspan =>
      have := h.start_le
      have := h.inside
      omega
  | case4 p reach hp =>
      have := h.start_le
      have := h.inside
      omega

theorem Tries.le_reach {start : Nat} (h : Tries m start p) :
    p + span ≤ (locate m start).reach := by
  rw [reach_locate]
  exact h.le_search 0

end Signature

/-! ## The header -/

namespace Header

theorem within_throughCell {base n : Nat} (hbase : m.Near base) (hn : 4 + 2 * n < 255) :
    (throughCell m base n part).Within m := by
  refine (hbase.within_wordAt hn).bind fun cell hcell => ?_
  have hnear : m.Near cell := Snapshot.near_of_lt (Snapshot.lt_of_wordAt_eq_ok hcell)
  exact hnear.within_wordAt (by omega)

theorem within_resolve {anchor : Nat} (hanchor : anchor ≤ m.size) :
    (resolve m anchor).Within m := by
  have hnear : m.Near anchor := Snapshot.near_of_le hanchor
  refine (hnear.within_byteAt (by decide)).bind fun carried hcarried => ?_
  have hbase : m.Near (anchor + distance) :=
    Snapshot.near_of_le (Nat.le_of_lt (m.inside_of_result_byteAt hcarried))
  refine (hbase.within_byteAt (by decide)).bind fun objectCount _ => ?_
  refine (hbase.within_byteAt (by decide)).bind fun locationCount _ => ?_
  refine (hbase.within_byteAt (by decide)).bind fun messageCount _ => ?_
  refine (hbase.within_wordAt (by decide)).bind fun responses _ => ?_
  refine (hbase.within_wordAt (by decide)).bind fun processes _ => ?_
  refine (within_throughCell hbase (by decide)).bind fun objects _ => ?_
  refine (within_throughCell hbase (by decide)).bind fun locations _ => ?_
  refine (within_throughCell hbase (by decide)).bind fun messages _ => ?_
  refine (within_throughCell hbase (by decide)).bind fun connections _ => ?_
  refine (hbase.within_wordAt (by decide)).bind fun vocabulary _ => ?_
  refine (hbase.within_wordAt (by decide)).bind fun positions _ => ?_
  exact (Reading.within_record _).bind fun _ _ => Reading.within_pure _

end Header

/-! ## Rules -/

namespace Rules

theorem conditions_confined : (conditions m part).Confined m where
  record := fun _ _ _ h => conditionAt_inside h
  stop := by
    intro p w h
    obtain ⟨rfl, -⟩ := conditionAt_eq_stop_iff.1 h
    decide
  step := by
    intro p hp
    refine (hp.within_byteAt (by decide)).bind fun opcode _ => ?_
    split
    · exact Reading.within_pure _
    refine (hp.within_byteAt (by decide)).bind fun param1 _ => ?_
    split
    · exact Reading.within_pure _
    exact (hp.within_byteAt (by decide)).bind fun param2 _ => Reading.within_pure _

theorem within_parameterAt {count k : Nat} (hp : m.Near p) (hk : k ≤ 255) :
    (parameterAt m part p count k).Within m := by
  unfold parameterAt
  split
  · exact (hp.within_byteAt hk).bind fun b _ => Reading.within_pure _
  · exact Reading.within_pure _

theorem actions_confined : (actions m part Version.v0.arguments).Confined m where
  record := fun _ _ _ h => actionAt_inside h
  stop := by
    intro p w h
    obtain ⟨rfl, -⟩ := actionAt_eq_stop_iff.1 h
    decide
  step := by
    intro p hp
    refine (hp.within_byteAt (by decide)).bind fun opcode _ => ?_
    split
    · exact Reading.within_pure _
    refine (within_parameterAt hp (by decide)).bind fun param1 _ => ?_
    exact (within_parameterAt hp (by decide)).bind fun param2 _ => Reading.within_pure _

theorem within_readBlock (hp : m.Near p) :
    (readBlock m part Version.v0.arguments p).Within m := by
  refine (conditions_confined.walk hp).bind fun out hout => ?_
  -- The actions begin behind the byte that closes the conditions.
  obtain ⟨q, -, hend, hq⟩ := readConditions_eq_ok_iff.1 hout
  have hnext : m.Near out.2 := hq ▸ Snapshot.near_of_le (Snapshot.lt_size_of_get? hend)
  refine Reading.Within.bind ?_ fun actions _ => Reading.within_pure _
  exact (actions_confined.walk hnext).bind fun list _ => Reading.within_pure _

theorem within_wordsAt {kind : CommandKind} {first : UInt8} (hp : m.Near p) :
    (wordsAt m kind p first).Within m := by
  cases kind with
  | response => exact (hp.within_byteAt (by decide)).bind fun second _ => Reading.within_pure _
  | process => exact Reading.within_pure _

theorem entries_confined {kind : CommandKind} :
    (entries m kind Version.v0.arguments).Confined m where
  record := entries_bounded.record
  stop := by
    intro p w h
    obtain ⟨rfl, -⟩ := entryAt_eq_stop_iff.1 h
    decide
  step := by
    intro p hp
    refine (hp.within_byteAt (by decide)).bind fun first _ => ?_
    split
    · exact Reading.within_pure _
    refine (within_wordsAt hp).bind fun words _ => ?_
    refine (hp.within_wordAt (by decide)).bind fun block hblock => ?_
    have hnear : m.Near block := Snapshot.near_of_lt (Snapshot.lt_of_wordAt_eq_ok hblock)
    exact (within_readBlock hnear).bind fun body _ => Reading.within_pure _

theorem within_readCommands {kind : CommandKind} (hp : m.Near p) :
    (readCommands m kind Version.v0.arguments p).Within m := by
  refine (entries_confined.walk hp).bind fun list _ => ?_
  exact (Reading.within_record _).bind fun _ _ => Reading.within_pure _

end Rules

/-! ## Texts, exits and words -/

namespace Text

theorem within_codeAt {k : Nat} (hp : m.Near p) (hk : k ≤ 255) : (codeAt m part p k).Within m :=
  (hp.within_byteAt hk).bind fun _ _ => Reading.within_pure _

theorem tokens_confined : (tokens m part).Confined m where
  record := tokens_bounded.record
  stop := by
    intro p w h
    obtain ⟨rfl, -⟩ := tokenAt_eq_stop_iff.1 h
    decide
  step := by
    intro p hp
    refine (hp.within_byteAt (by decide)).bind fun stored _ => ?_
    unfold tokenFrom
    split
    · exact Reading.within_pure _
    split
    · exact Reading.within_pure _
    split
    · exact (within_codeAt hp (by decide)).bind fun next _ => Reading.within_pure _
    split
    · exact (within_codeAt hp (by decide)).bind fun colour _ => Reading.within_pure _
    split
    · exact (within_codeAt hp (by decide)).bind fun colour _ => Reading.within_pure _
    · exact Reading.within_pure _

theorem within_readAll {count : Nat} (hp : m.Near p) : (readAll m part p count).Within m := by
  have read : ∀ p, m.Near p → (Text.read m part p).Within m := by
    intro p hp
    refine (tokens_confined.walk hp).bind fun out _ => ?_
    exact (Reading.within_record _).bind fun _ _ => Reading.within_pure _
  have texts : (packed (fun _ p => Text.read m part p) count p).Within m :=
    within_packed (fun _ _ _ _ h => read_le_size h) (fun _ p hp => read p hp) hp
  refine texts.bind fun out _ => ?_
  exact (Reading.within_record _).bind fun _ _ => Reading.within_pure _

end Text

namespace Exits

theorem pairs_confined : (pairs m).Confined m where
  record := pairs_bounded.record
  stop := by
    intro p w h
    obtain ⟨rfl, -⟩ := pairAt_eq_stop_iff.1 h
    decide
  step := by
    intro p hp
    refine (hp.within_byteAt (by decide)).bind fun direction _ => ?_
    split
    · exact Reading.within_pure _
    · exact (hp.within_byteAt (by decide)).bind fun destination _ => Reading.within_pure _

theorem within_readAll {count : Nat} (hp : m.Near p) : (readAll m p count).Within m := by
  have read : ∀ index p, m.Near p → (Exits.read m index p).Within m := by
    intro index p hp
    refine (pairs_confined.walk hp).bind fun out _ => ?_
    exact (Reading.within_record _).bind fun _ _ => Reading.within_pure _
  have rows : (packed (Exits.read m) count p).Within m :=
    within_packed (fun _ _ _ _ h => read_le_size h) read hp
  refine rows.bind fun out _ => ?_
  exact (Reading.within_record _).bind fun _ _ => Reading.within_pure _

end Exits

namespace Vocabulary

theorem words_confined (hm : m.size < addressLimit) : (words m).Confined m where
  record := (words_bounded hm).record
  stop := by
    intro p w h
    obtain ⟨rfl, -⟩ := wordAt_eq_stop_iff.1 h
    decide
  step := by
    intro p hp
    refine (hp.within_byteAt (by decide)).bind fun token _ => ?_
    split
    · exact Reading.within_pure _
    · exact (hp.within_slice (by decide)).bind fun stored _ => Reading.within_pure _

theorem within_read (hm : m.size < addressLimit) (hp : m.Near p) : (read m p).Within m := by
  refine ((words_confined hm).walk hp).bind fun list _ => ?_
  exact (Reading.within_record _).bind fun _ _ => Reading.within_pure _

end Vocabulary

/-! ## The decode -/

namespace Database

variable {o : Options}

theorem within_readTables (hm : m.size < addressLimit) {h : Header} (hshort : h.Short) :
    (readTables m Version.v0.arguments h).Within m := by
  have near : ∀ {table : Nat}, table < 65536 → m.Near table := Snapshot.near_of_lt
  refine (Rules.within_readCommands (near hshort.responses)).bind fun responses _ => ?_
  refine (Rules.within_readCommands (near hshort.processes)).bind fun processes _ => ?_
  refine (Text.within_readAll (near hshort.objects)).bind fun objects _ => ?_
  refine (Text.within_readAll (near hshort.locations)).bind fun locations _ => ?_
  refine (Text.within_readAll (near hshort.messages)).bind fun messages _ => ?_
  refine (Exits.within_readAll (near hshort.connections)).bind fun connections _ => ?_
  refine (Vocabulary.within_read hm (near hshort.vocabulary)).bind fun vocabulary _ => ?_
  have hcount : h.objectCount.toNat ≤ 255 := Nat.le_of_lt_succ h.objectCount.toNat_lt
  exact ((near hshort.positions).within_slice hcount).bind fun positions _ =>
    Reading.within_pure _

theorem within_decode (hm : m.size < addressLimit) : (decode m o).Within m := by
  have hsupported : (Reading.settled o.supported).Within m := Nat.zero_le _
  refine hsupported.bind fun version _ => ?_
  cases version
  refine (Signature.within_locate o.searchStart).bind fun anchor hanchor => ?_
  have hspan : anchor + 10 < m.size := (Signature.locate_eq_ok_iff.1 hanchor).1.2.1
  refine (Header.within_resolve (by omega)).bind fun h hresolve => ?_
  refine (Reading.within_record _).bind fun _ _ => ?_
  refine (within_readTables hm (Header.short_of_resolve hresolve)).bind fun database _ => ?_
  exact (Reading.within_record _).bind fun _ _ => Reading.within_pure _

/-- The runs of bytes that a decode may ask for: the characters of a word at
each place that its walk over the vocabulary gets to, and the positions. -/
inductive Run (m : Snapshot) (o : Options) : (a len : Nat) → Prop where
  | word {anchor : Nat} {h : Header} {l : List (String × UInt8)} {p : Nat} :
      (Signature.locate m o.searchStart).result = .ok anchor →
      (Header.resolve m anchor).result = .ok h →
      (Vocabulary.words m).Passes h.vocabulary l p → Run m o p Vocabulary.wordLength
  | positions {anchor : Nat} {h : Header} :
      (Signature.locate m o.searchStart).result = .ok anchor →
      (Header.resolve m anchor).result = .ok h → Run m o h.positions h.objectCount.toNat

theorem Run.end_le (hm : m.size < addressLimit) {a len : Nat} (h : Run m o a len) :
    a + len ≤ max m.size 65535 + 255 := by
  cases h with
  | word _ hresolve hpass =>
      have hstart := Snapshot.near_of_lt (m := m) (Header.short_of_resolve hresolve).vocabulary
      exact ((Vocabulary.words_confined hm).near hstart hpass).add_le (by decide)
  | @positions _ h _ hresolve =>
      have hstart := Snapshot.near_of_lt (m := m) (Header.short_of_resolve hresolve).positions
      exact hstart.add_le (Nat.le_of_lt_succ h.objectCount.toNat_lt)

/-- How far a decode reaches, whether it succeeds or fails. -/
structure Reaches (m : Snapshot) (o : Options) : Prop where
  /-- No sum of addresses lies further than 255 behind the snapshot or behind
  the last address that fits a word. -/
  reach_le : (decode m o).reach ≤ max m.size 65535 + 255
  /-- Every sum up to there is an address. -/
  limit : max m.size 65535 + 255 < addressLimit
  /-- The places at which the marker is looked for are among the sums. -/
  marker : o.version = 0 → ∀ p i, Signature.Tries m o.searchStart p → i ≤ 5 →
    p + 2 * i ≤ (decode m o).reach
  /-- Every run of bytes ends at an address. -/
  run : ∀ a len, Run m o a len → a + len < addressLimit

/-- Whatever is decoded and from wherever the search starts, no sum of
addresses overflows. -/
theorem decode_reach (m : Snapshot) (o : Options) (hm : m.size ≤ 2 ^ 63 - 1) : Reaches m o := by
  have hlimit : max m.size 65535 + 255 < addressLimit := by
    simp only [addressLimit, UInt64.size]
    omega
  have hsize : m.size < addressLimit := by omega
  refine ⟨within_decode hsize, hlimit, ?marker, ?run⟩
  case marker =>
    intro hversion p i hp hi
    have behind := (Reading.reach_bind_le_iff.1 (Nat.le_refl (decode m o).reach)).2 _
      (result_supported hversion)
    have hreach := (Reading.reach_bind_le_iff.1 behind).1
    have hspan : p + 10 ≤ (Signature.locate m o.searchStart).reach := hp.le_reach
    omega
  case run =>
    intro a len h
    exact Nat.lt_of_le_of_lt (h.end_le hsize) hlimit

/-- A database whose two positions are wanted from the last address on. -/
def farImage : Snapshot :=
  ⟨#[0, 0, 17, 0, 18, 0, 19, 0, 20, 0, 21, 0, 0, 0, 2, 0, 0, 0, 0, 0, 0, 33, 0, 0, 0, 0, 0, 0, 0,
     1, 0, 255, 255, 35, 0, 224, 224]⟩

/-- The run of positions counts for the reach although it cannot be read. -/
theorem decode_reach_farImage :
    farImage.size ≤ 2 ^ 63 - 1 ∧ Reaches farImage ⟨0, 0⟩ ∧
      (decode farImage ⟨0, 0⟩).result = .error (.malformed .positions 65535) ∧
      (decode farImage ⟨0, 0⟩).reach = 65535 + 2 := by
  have hsize : farImage.size ≤ 2 ^ 63 - 1 := by decide
  have fails : (decode farImage ⟨0, 0⟩).result.map (fun _ => ()) =
      .error (.malformed .positions 65535) := by decide +kernel
  refine ⟨hsize, decode_reach farImage ⟨0, 0⟩ hsize, ?_, by decide +kernel⟩
  cases h : (decode farImage ⟨0, 0⟩).result with
  | ok d =>
      rw [h] at fails
      cases fails
  | error f =>
      rw [h] at fails
      cases fails
      rfl

end Database
end Adventure
