/-
# Ordered maps of lists

A map that is built from a list of pairs has the keys of the list in the
order of their first occurrence, and gives a key the value of its last pair.
A map is determined by that, as it has no key twice, and so `latest` says what
it is without speaking of insertion.  For the same reason, looking a key up is
looking for its entry (`get?_eq_some_iff`).
-/
import Adventure.OrderedMap
import Mathlib.Data.List.Forall2
import Mathlib.Data.List.Induction

namespace Adventure
namespace OrderedMap

variable {α β : Type} [BEq α] [LawfulBEq α]

theorem ofList_concat (l : List (α × β)) (e : α × β) :
    ofList (l ++ [e]) = (ofList l).insert e.1 e.2 := by
  simp [ofList]

/-! ## Insertion -/

theorem lookup_place (k k' : α) (v : β) (l : List (α × β)) :
    (place k v l).lookup k' = if k' == k then some v else l.lookup k' := by
  induction l with
  | nil =>
      show List.lookup k' [(k, v)] = _
      rw [List.lookup_cons]
      cases k' == k <;> rfl
  | cons e rest ih =>
      rw [place]
      by_cases he : e.1 = k
      · subst he
        rw [if_pos (beq_self_eq_true _), List.lookup_cons, List.lookup_cons]
        cases k' == e.1 <;> rfl
      · rw [if_neg (by simpa using he), List.lookup_cons, List.lookup_cons, ih]
        by_cases hk : k' = k
        · subst hk
          have hne : (k' == e.1) = false := by simpa using fun h => he h.symm
          rw [hne, beq_self_eq_true, if_pos rfl]
        · have hne : (k' == k) = false := by simpa using hk
          rw [hne]
          rfl

/-- The inserted key has the inserted value; every other key keeps its own. -/
theorem get?_insert (m : OrderedMap α β) (k k' : α) (v : β) :
    (m.insert k v).get? k' = if k' == k then some v else m.get? k' :=
  lookup_place k k' v m.entries

/-! ## Finding and removing -/

/-- Each entry is found under its key. -/
theorem get?_eq_some_iff {m : OrderedMap α β} {k : α} {v : β} :
    m.get? k = some v ↔ (k, v) ∈ m.entries := by
  rw [get?, List.lookup_eq_some_iff]
  constructor
  · rintro ⟨before, behind, hentries, -⟩
    rw [hentries]
    exact List.mem_append_right _ List.mem_cons_self
  · intro hmem
    obtain ⟨before, behind, hentries⟩ := List.append_of_mem hmem
    refine ⟨before, behind, hentries, fun e he => bne_iff_ne.2 ?_⟩
    rintro rfl
    have hnodup := m.nodup
    rw [hentries, List.map_append, List.nodup_append] at hnodup
    exact hnodup.2.2 e.1 (List.mem_map_of_mem he) e.1 (by simp) rfl

theorem mem_entries_erase {m : OrderedMap α β} {k : α} {e : α × β} :
    e ∈ (m.erase k).entries ↔ e ∈ m.entries ∧ e.1 ≠ k := by
  simp [erase]

/-- A key is found as before when another one has been removed. -/
theorem get?_erase_of_ne {m : OrderedMap α β} {k k' : α} (hne : k' ≠ k) :
    (m.erase k).get? k' = m.get? k' := by
  ext v
  rw [get?_eq_some_iff, get?_eq_some_iff, mem_entries_erase, and_iff_left hne]

/-- A map is equal to itself. -/
theorem beq_self [BEq β] [LawfulBEq β] (m : OrderedMap α β) : (m == m) = true := by
  have found : ∀ e ∈ m.entries, (m.get? e.1 == some e.2) = true :=
    fun e he => beq_iff_eq.2 (get?_eq_some_iff.2 he)
  change (m.size == m.size && m.entries.all fun e => m.get? e.1 == some e.2) = true
  rw [beq_self_eq_true, Bool.true_and, List.all_eq_true]
  exact found

instance [BEq β] [LawfulBEq β] : ReflBEq (OrderedMap α β) :=
  ⟨beq_self _⟩

/-! ## Maps of lists -/

/-- The keys stand in the order of their first occurrence. -/
theorem keys_ofList (l : List (α × β)) : (ofList l).keys = (l.map Prod.fst).eraseDups := by
  induction l using List.reverseRecOn with
  | nil => rfl
  | append_singleton l e ih =>
      have hmem : e.1 ∈ (l.map Prod.fst).eraseDups ↔ e.1 ∈ l.map Prod.fst := List.mem_eraseDups
      rw [ofList_concat, keys_insert, ih, List.map_append, List.eraseDups_append]
      by_cases h : e.1 ∈ l.map Prod.fst
      · rw [if_pos (hmem.2 h)]
        simp [List.removeAll, h]
      · rw [if_neg (mt hmem.1 h)]
        simp [List.removeAll, h, List.eraseDups_cons]

/-- A key has the value of its last pair. -/
theorem get?_ofList (l : List (α × β)) (k : α) : (ofList l).get? k = l.reverse.lookup k := by
  induction l using List.reverseRecOn with
  | nil => rfl
  | append_singleton l e ih =>
      rw [ofList_concat, get?_insert, ih, List.reverse_append]
      show _ = List.lookup k (e :: l.reverse)
      rw [List.lookup_cons]
      split <;> rename_i h <;> simp [h]

/-- A map is its keys with their values. -/
theorem entries_eq (m : OrderedMap α β) :
    m.entries = m.keys.filterMap fun k => (m.get? k).map fun v => (k, v) := by
  have found : ∀ e ∈ m.entries, ((m.get? e.1).map fun v => (e.1, v)) = some e := by
    intro e he
    rw [get?_eq_some_iff.2 he]
    rfl
  rw [keys, List.filterMap_map]
  calc m.entries = m.entries.filterMap some := List.filterMap_some.symm
    _ = m.entries.filterMap fun e => (m.get? e.1).map fun v => (e.1, v) :=
        (List.filterMap_congr found).symm

theorem entries_ofList (l : List (α × β)) :
    (ofList l).entries =
      (l.map Prod.fst).eraseDups.filterMap fun k => (l.reverse.lookup k).map fun v => (k, v) := by
  rw [entries_eq, keys_ofList]
  simp only [get?_ofList]

/-- The keys in the order of their first occurrence, each with the value of
its last pair. -/
def latest (l : List (α × β)) : OrderedMap α β where
  entries := (l.map Prod.fst).eraseDups.filterMap fun k => (l.reverse.lookup k).map fun v => (k, v)
  nodup := entries_ofList l ▸ (ofList l).nodup

/-- Inserting a list from left to right makes the map of its latest values. -/
theorem ofList_eq_latest (l : List (α × β)) : ofList l = latest l :=
  OrderedMap.ext (entries_ofList l)

/-- The entries of a map are among the pairs that it was made of. -/
theorem mem_of_mem_entries_ofList {l : List (α × β)} {e : α × β} (h : e ∈ (ofList l).entries) :
    e ∈ l := by
  rw [ofList_eq_latest] at h
  obtain ⟨k, -, hk⟩ := List.mem_filterMap.1 h
  obtain ⟨v, hv, rfl⟩ := Option.map_eq_some_iff.1 hk
  obtain ⟨before, behind, hl, -⟩ := List.lookup_eq_some_iff.1 hv
  rw [← List.mem_reverse, hl]
  simp

/-! ## What a list of pairs determines -/

/-- The value of the pairs for `k`, of which none but the last counts: the pair
at `i` has it, and no pair behind `i` has the key. -/
def LastAt (l : List (α × β)) (k : α) (v : β) (i : Nat) : Prop :=
  l[i]? = some (k, v) ∧ ∀ j e, i < j → l[j]? = some e → e.1 ≠ k

/-- The map has the keys of the list in the order of their first occurrence,
each of them with the value of its last pair. -/
structure Collects (m : OrderedMap α β) (l : List (α × β)) : Prop where
  keys : m.keys = (l.map Prod.fst).eraseDups
  last : ∀ k v, m.get? k = some v ↔ ∃ i, LastAt l k v i

/-- From the right, the last pair of a key is the first one. -/
theorem lookup_reverse_eq_some_iff {l : List (α × β)} {k : α} {v : β} :
    l.reverse.lookup k = some v ↔ ∃ i, LastAt l k v i := by
  rw [List.lookup_eq_some_iff]
  constructor
  · rintro ⟨later, earlier, hreverse, hlater⟩
    have hl : l = earlier.reverse ++ (k, v) :: later.reverse := by
      rw [← List.reverse_reverse l, hreverse]
      simp
    refine ⟨earlier.length, by simp [hl], ?_⟩
    intro j e hj he
    rw [hl, List.getElem?_append_right (by simp; omega), List.length_reverse,
      List.getElem?_cons, if_neg (by omega)] at he
    have hmem : e ∈ later := List.mem_reverse.1 (List.mem_of_getElem? he)
    exact (bne_iff_ne.1 (hlater e hmem)).symm
  · rintro ⟨i, hi, hlast⟩
    obtain ⟨hlt, hget⟩ := List.getElem?_eq_some_iff.1 hi
    refine ⟨(l.drop (i + 1)).reverse, (l.take i).reverse, ?_, ?_⟩
    · conv_lhs => rw [← List.take_append_drop i l, List.drop_eq_getElem_cons hlt, hget]
      simp
    · intro e he
      obtain ⟨j, hj⟩ := List.mem_iff_getElem?.1 (List.mem_reverse.1 he)
      rw [List.getElem?_drop] at hj
      rw [bne_iff_ne]
      exact (hlast (i + 1 + j) e (by omega) hj).symm

/-- A list of pairs determines its map. -/
theorem collects_iff {m : OrderedMap α β} {l : List (α × β)} : m.Collects l ↔ m = ofList l := by
  constructor
  · rintro ⟨hkeys, hlast⟩
    have hget : ∀ k, m.get? k = l.reverse.lookup k := by
      intro k
      ext v
      rw [hlast, lookup_reverse_eq_some_iff]
    refine OrderedMap.ext ?_
    rw [entries_eq, entries_ofList, hkeys]
    simp only [hget]
  · rintro rfl
    refine ⟨keys_ofList l, fun k v => ?_⟩
    rw [get?_ofList, lookup_reverse_eq_some_iff]

/-- Lists of pairs determine their maps, each its own. -/
theorem forall₂_collects_iff {maps : List (OrderedMap α β)} {rows : List (List (α × β))} :
    List.Forall₂ Collects maps rows ↔ maps = rows.map ofList := by
  induction rows generalizing maps with
  | nil => cases maps <;> simp
  | cons row rows ih => cases maps <;> simp [collects_iff, ih]

end OrderedMap
end Adventure
