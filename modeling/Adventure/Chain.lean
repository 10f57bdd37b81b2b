/-
# Chains

A rule table is stored as a chain: an entry, and then either nothing or the
rest of the chain.  A chain is never empty, so a table without entries is
`none : Option (Chain α)`, and that is a different thing from any chain.

Chains run to tens of thousands of entries, because every zero byte is an
action.  So each operation here is a loop with an accumulator, and the
lemmas say what the loop computes in terms of `entries`, a chain read as a
list: building yields back the list (`entries_ofList?`), counting counts it
(`size_eq_length`), copying every entry copies it (`entries_copy`), and
comparing compares it to the last entry (`agree_iff_eq`).
-/

namespace Adventure

/-- A list with at least one entry. -/
inductive Chain (α : Type) where
  | last (a : α)
  | link (a : α) (rest : Chain α)

namespace Chain

variable {α : Type}

/-! ## The chain as a list -/

/-- The entries in order: the plain recursion that the loops are measured by. -/
def entries : Chain α → List α
  | last a => [a]
  | link a rest => a :: rest.entries

/-- The entries of a chain in front of those already met, the latest first. -/
def gather : Chain α → List α → List α
  | last a, met => a :: met
  | link a rest, met => rest.gather (a :: met)

/-- The entries in order, by a loop. -/
def toList (c : Chain α) : List α :=
  (c.gather []).reverse

/-- The first entry. -/
def first : Chain α → α
  | last a => a
  | link a _ => a

/-- The chain after its first entry. -/
def tail? : Chain α → Option (Chain α)
  | last _ => none
  | link _ rest => some rest

/-! ## Building -/

/-- An entry in front of a chain that may be absent. -/
def before (a : α) : Option (Chain α) → Chain α
  | none => last a
  | some rest => link a rest

/-- The chain of a list, linked from its last entry backwards; none for `[]`. -/
def ofList? (l : List α) : Option (Chain α) :=
  l.reverse.foldl (fun rest a => some (before a rest)) none

/-- A chain linked anew, where `f` copies an entry: a copy of the first entry
in front of the chain of the copies of the others. -/
def copy (f : α → α) (c : Chain α) : Chain α :=
  before (f c.first) (ofList? ((c.toList.drop 1).map f))

/-! ## Loops over a chain -/

/-- `n` and the number of entries together. -/
def countFrom : Chain α → Nat → Nat
  | last _, n => n + 1
  | link _ rest, n => rest.countFrom (n + 1)

/-- The number of entries. -/
def size (c : Chain α) : Nat :=
  c.countFrom 0

/-- Whether two chains are equally long and have equal entries at every position. -/
def agree [BEq α] : Chain α → Chain α → Bool
  | last a, last b => a == b
  | link a r, link b s => if a == b then r.agree s else false
  | _, _ => false

instance [BEq α] : BEq (Chain α) :=
  ⟨agree⟩

/-! ## Tables: chains that may be absent -/

/-- The entries of a table; none when there is no chain. -/
def listOf (table : Option (Chain α)) : List α :=
  (table.map toList).getD []

/-- The number of entries of a table. -/
def sizeOf (table : Option (Chain α)) : Nat :=
  (table.map size).getD 0

/-- A table changed as the list of its entries is. -/
def edit (f : List α → List α) (table : Option (Chain α)) : Option (Chain α) :=
  ofList? (f (listOf table))

/-! ## What the loops compute -/

theorem gather_eq (c : Chain α) (met : List α) :
    c.gather met = c.entries.reverse ++ met := by
  induction c generalizing met with
  | last a => simp [gather, entries]
  | link a rest ih => simp [gather, entries, ih]

@[simp] theorem toList_eq_entries (c : Chain α) : c.toList = c.entries := by
  simp [toList, gather_eq]

theorem countFrom_eq (c : Chain α) (n : Nat) : c.countFrom n = n + c.entries.length := by
  induction c generalizing n with
  | last a => simp [countFrom, entries]
  | link a rest ih => simp [countFrom, entries, ih]; omega

theorem size_eq_length (c : Chain α) : c.size = c.entries.length := by
  simp [size, countFrom_eq]

theorem ofList?_cons (a : α) (l : List α) : ofList? (a :: l) = some (before a (ofList? l)) := by
  simp [ofList?]

@[simp] theorem ofList?_nil : ofList? ([] : List α) = none := rfl

/-- A chain built from a list has the entries of that list. -/
theorem entries_ofList? (l : List α) : ((ofList? l).map entries).getD [] = l := by
  induction l with
  | nil => rfl
  | cons a l ih =>
      cases h : ofList? l with
      | none => simp_all [ofList?_cons, before, entries]
      | some c => simp_all [ofList?_cons, before, entries]

/-- A table built from a list reads back as that list. -/
theorem listOf_ofList? (l : List α) : listOf (ofList? l) = l := by
  have h := entries_ofList? l
  cases hc : ofList? l <;> simp_all [listOf]

/-- A table is the one built from the list it reads as. -/
theorem ofList?_listOf (table : Option (Chain α)) : ofList? (listOf table) = table := by
  cases table with
  | none => rfl
  | some c =>
      induction c with
      | last a => rfl
      | link a rest ih =>
          have hrest : listOf (some (link a rest)) = a :: listOf (some rest) := by
            simp [listOf, entries]
          rw [hrest, ofList?_cons, ih]
          rfl

/-- A list is read from one table only. -/
theorem listOf_eq_iff {table : Option (Chain α)} {l : List α} :
    listOf table = l ↔ table = ofList? l := by
  constructor
  · rintro rfl
    exact (ofList?_listOf table).symm
  · rintro rfl
    exact listOf_ofList? l

/-- Only an absent chain has no entries. -/
theorem length_listOf_eq_zero_iff {table : Option (Chain α)} :
    (listOf table).length = 0 ↔ table = none := by
  rw [List.length_eq_zero_iff, listOf_eq_iff, ofList?_nil]

/-- An edited table reads as the edited list. -/
theorem listOf_edit (f : List α → List α) (table : Option (Chain α)) :
    listOf (edit f table) = f (listOf table) :=
  listOf_ofList? _

/-- Comparing chains is comparing them entry by entry, to the last. -/
theorem agree_iff_eq [BEq α] [LawfulBEq α] (c d : Chain α) : c.agree d = true ↔ c = d := by
  induction c generalizing d with
  | last a => cases d <;> simp [agree]
  | link a r ih => cases d <;> simp [agree, ih]

instance [BEq α] [LawfulBEq α] : LawfulBEq (Chain α) where
  eq_of_beq h := (agree_iff_eq _ _).1 h
  rfl := (agree_iff_eq _ _).2 rfl

theorem entries_before (a : α) (rest : Option (Chain α)) :
    (before a rest).entries = a :: listOf rest := by
  cases rest <;> simp [before, entries, listOf]

/-- A chain is its first entry and, behind that, the rest of it. -/
theorem entries_eq_cons (c : Chain α) : c.entries = c.first :: listOf c.tail? := by
  cases c <;> simp [entries, first, tail?, listOf]

/-- Copying a chain copies every entry of its list, in its place. -/
theorem entries_copy (f : α → α) (c : Chain α) : (c.copy f).entries = c.entries.map f := by
  rw [copy, entries_before, listOf_ofList?, toList_eq_entries, entries_eq_cons, List.drop_one,
    List.tail_cons, List.map_cons]

end Chain
end Adventure
