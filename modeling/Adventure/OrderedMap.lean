/-
# Maps that remember their order

Exits and vocabularies are maps whose entries keep the order in which their
keys were first inserted.  A key that is inserted again keeps its place and
takes the later value.  Two maps are equal when they hold the same entries;
their orders are not compared, although both orders can be seen.

No map has a key twice: a map carries the proof of it, from the map without
entries through every insertion and removal.
-/

namespace Adventure

/-- Entries in order of first insertion, no two of them with one key. -/
@[ext]
structure OrderedMap (α β : Type) where
  entries : List (α × β)
  nodup : (entries.map Prod.fst).Nodup

namespace OrderedMap

variable {α β : Type}

/-- The map without entries. -/
def empty : OrderedMap α β :=
  ⟨[], List.nodup_nil⟩

/-- The number of entries. -/
def size (m : OrderedMap α β) : Nat :=
  m.entries.length

/-- The keys in order. -/
def keys (m : OrderedMap α β) : List α :=
  m.entries.map Prod.fst

theorem nodup_keys (m : OrderedMap α β) : m.keys.Nodup :=
  m.nodup

section Lookup

variable [BEq α]

/-- The value of a key. -/
def get? (m : OrderedMap α β) (k : α) : Option β :=
  m.entries.lookup k

/-- The entries with `k` set to `v`, in its old place or at the end. -/
def place (k : α) (v : β) : List (α × β) → List (α × β)
  | [] => [(k, v)]
  | e :: rest => if e.1 == k then (e.1, v) :: rest else e :: place k v rest

theorem keys_place [LawfulBEq α] (k : α) (v : β) (l : List (α × β)) :
    (place k v l).map Prod.fst =
      if k ∈ l.map Prod.fst then l.map Prod.fst else l.map Prod.fst ++ [k] := by
  induction l with
  | nil => simp [place]
  | cons e rest ih =>
      by_cases h : e.1 = k
      · simp [place, h]
      · have h' : ¬ k = e.1 := fun x => h x.symm
        simp only [place, beq_iff_eq, h, if_false, List.map_cons, ih, List.mem_cons, h', false_or]
        split <;> simp

/-- A key that comes last is a new one. -/
theorem nodup_place [LawfulBEq α] {l : List (α × β)} (h : (l.map Prod.fst).Nodup) (k : α) (v : β) :
    ((place k v l).map Prod.fst).Nodup := by
  rw [keys_place]
  split
  · exact h
  · rename_i hk
    refine List.nodup_append.2 ⟨h, List.nodup_cons.2 ⟨List.not_mem_nil, List.nodup_nil⟩, ?_⟩
    intro a ha b hb heq
    rw [List.mem_singleton] at hb
    exact hk (hb ▸ heq ▸ ha)

/-- Set a key: in its old place, or at the end when it is new. -/
def insert [LawfulBEq α] (m : OrderedMap α β) (k : α) (v : β) : OrderedMap α β :=
  ⟨place k v m.entries, nodup_place m.nodup k v⟩

/-- Remove a key; the other entries keep their order. -/
def erase (m : OrderedMap α β) (k : α) : OrderedMap α β :=
  ⟨m.entries.filter (fun e => !(e.1 == k)), m.nodup.sublist (List.filter_sublist.map Prod.fst)⟩

/-- The map of a list of pairs, inserted from left to right. -/
def ofList [LawfulBEq α] (pairs : List (α × β)) : OrderedMap α β :=
  pairs.foldl (fun m e => m.insert e.1 e.2) empty

/-- Equality as maps: as many entries, and each entry of one found in the other. -/
def agree [BEq β] (m n : OrderedMap α β) : Bool :=
  m.size == n.size && m.entries.all (fun e => n.get? e.1 == some e.2)

instance [BEq β] : BEq (OrderedMap α β) :=
  ⟨agree⟩

end Lookup

/-- An old key keeps its place; a new key comes last. -/
theorem keys_insert [BEq α] [LawfulBEq α] (m : OrderedMap α β) (k : α) (v : β) :
    (m.insert k v).keys = if k ∈ m.keys then m.keys else m.keys ++ [k] :=
  keys_place k v m.entries

end OrderedMap
end Adventure
