/-
# Chains worked on by loops

A chain is linked, visited, counted, copied and compared by loops, because
its length is not bounded.  What the loops have to come to is what the plain
recursion does: `entries` is the chain as a list, and two chains are the same
when their lists are, entry by entry and field by field.

The main statement is `chains_as_lists`, for chains of actions and for chains
of commands.  A command has a chain of its own, so there the loops run inside
the loops: `Command.Agree` compares the actions of two commands as chains,
and a command without a chain agrees with none that has one.
-/
import Adventure.Database.Edit
import Mathlib.Data.List.Forall2

namespace Adventure
namespace Chain

variable {α : Type}

/-- A visit that stands at a table yields these entries: the first entry of
the chain, and what there is behind it, until there is no chain. -/
inductive Yields : Option (Chain α) → List α → Prop where
  | nil : Yields none []
  | cons {c : Chain α} {l : List α} : Yields c.tail? l → Yields (some c) (c.first :: l)

/-! ## Visiting -/

theorem listOf_some (c : Chain α) : listOf (some c) = c.first :: listOf c.tail? :=
  (toList_eq_entries c).trans (entries_eq_cons c)

/-- No two tables read as one list. -/
theorem listOf_injective : Function.Injective (listOf : Option (Chain α) → List α) :=
  Function.LeftInverse.injective ofList?_listOf

/-- A table yields its entries in their order, and nothing else. -/
theorem yields_iff {table : Option (Chain α)} {l : List α} :
    Yields table l ↔ l = listOf table := by
  constructor
  · intro h
    induction h with
    | nil => rfl
    | cons _ ih => rw [listOf_some, ih]
  · rintro rfl
    cases table with
    | none => exact .nil
    | some c =>
        induction c with
        | last a => exact .cons .nil
        | link a rest ih =>
            rw [listOf_some]
            exact .cons ih

/-! ## Copying -/

/-- A chain linked anew from its own entries is the same chain. -/
theorem copy_eq {f : α → α} (hf : ∀ a, f a = a) (c : Chain α) : c.copy f = c := by
  have hlist : listOf (some (c.copy f)) = listOf (some c) := by
    rw [listOf_some, ← entries_eq_cons, listOf_some, ← entries_eq_cons, entries_copy]
    exact List.map_id'' hf c.entries
  have htable : some (c.copy f) = some c := by
    rw [← ofList?_listOf (some (c.copy f)), hlist, ofList?_listOf]
  exact Option.some.inj htable

/-- So is a table, with or without a chain. -/
theorem map_copy_eq {f : α → α} (hf : ∀ a, f a = a) (table : Option (Chain α)) :
    table.map (copy f) = table := by
  cases table with
  | none => rfl
  | some c => rw [Option.map_some, copy_eq hf]

/-! ## Comparing -/

/-- Two chains compare as equal exactly when their entries do, position by
position, and neither chain goes on when the other is over. -/
theorem beq_iff_forall₂ [BEq α] (c d : Chain α) :
    (c == d) = true ↔ List.Forall₂ (fun a b => (a == b) = true) c.entries d.entries := by
  change c.agree d = true ↔ _
  induction c generalizing d with
  | last a =>
      cases d with
      | last b => simp [agree, entries]
      | link b s => simp [agree, entries, entries_eq_cons s]
  | link a r ih =>
      cases d with
      | last b => simp [agree, entries, entries_eq_cons r]
      | link b s => simp [agree, entries, ih]

end Chain

/-! ## Actions and commands -/

/-- Two actions have the same opcode and the same parameters. -/
structure Action.Agree (a b : Action) : Prop where
  opcode : a.opcode = b.opcode
  param1 : a.param1 = b.param1
  param2 : a.param2 = b.param2

/-- Two commands have the same words and conditions, and neither has a chain
of actions, or both have one and the actions agree at every position. -/
structure Command.Agree (c d : Command) : Prop where
  word1 : c.word1 = d.word1
  word2 : c.word2 = d.word2
  conditions : c.conditions = d.conditions
  actions : Option.Rel (fun a b => List.Forall₂ Action.Agree a.entries b.entries)
    c.actions d.actions

theorem Action.beq_iff_agree (a b : Action) : (a == b) = true ↔ a.Agree b := by
  rw [beq_iff_eq]
  constructor
  · rintro rfl
    exact ⟨rfl, rfl, rfl⟩
  · rintro ⟨h0, h1, h2⟩
    cases a
    cases b
    simp_all

/-- Tables of actions compare as equal when both have a chain and its actions
agree, or none has. -/
theorem Action.table_beq_iff (s t : Option (Chain Action)) :
    (s == t) = true ↔
      Option.Rel (fun a b => List.Forall₂ Action.Agree a.entries b.entries) s t := by
  cases s with
  | none => cases t <;> simp
  | some a =>
      cases t with
      | none => simp
      | some b =>
          rw [Option.some_beq_some, Chain.beq_iff_forall₂, Option.rel_some_some]
          simp only [Action.beq_iff_agree]

theorem Command.beq_iff_agree (c d : Command) : (c == d) = true ↔ c.Agree d := by
  change (c.word1 == d.word1 && c.word2 == d.word2 && c.conditions == d.conditions &&
    c.actions == d.actions) = true ↔ _
  rw [Bool.and_eq_true, Action.table_beq_iff]
  simp only [Bool.and_eq_true, beq_iff_eq]
  constructor
  · rintro ⟨⟨⟨h1, h2⟩, hconditions⟩, hactions⟩
    exact ⟨h1, h2, hconditions, hactions⟩
  · rintro ⟨h1, h2, hconditions, hactions⟩
    exact ⟨⟨⟨h1, h2⟩, hconditions⟩, hactions⟩

/-- A command that has a copy of its actions is the same command. -/
theorem Command.copy_eq (c : Command) : c.copy = c := by
  rw [Command.copy, Chain.map_copy_eq (f := id) fun _ => rfl]

/-- A database that has copies of its rule tables is the same database. -/
theorem Database.copy_eq (d : Database) : d.copy = d := by
  have table : ∀ t : CommandTable, t.copy = t := Chain.map_copy_eq Command.copy_eq
  rw [Database.copy, table, table]

/-! ## Chains as lists -/

namespace Chain

/-- The loops over chains do what the plain recursion does.  `copyOf` is the
copy of an entry, and `Same` holds of two that have all their fields alike. -/
structure AsLists (α : Type) [BEq α] (copyOf : α → α) (Same : α → α → Prop) : Prop where
  /-- What is linked yields the entries in their order, all of them and each
  once, and it is no chain exactly when there are none. -/
  linked : ∀ l : List α, (∀ l', Yields (ofList? l) l' ↔ l' = l) ∧ (ofList? l = none ↔ l = [])
  /-- A chain yields its entries; collecting them does, too. -/
  visited : ∀ c : Chain α, (∀ l, Yields (some c) l ↔ l = c.entries) ∧ c.toList = c.entries
  /-- A copy yields the same entries, and it compares as equal. -/
  copied : ∀ c : Chain α, (∀ l, Yields (some (c.copy copyOf)) l ↔ l = c.entries) ∧
    (c.copy copyOf == c) = true
  /-- The size is the number of entries. -/
  counted : ∀ c : Chain α, c.size = c.entries.length
  /-- Chains compare as equal when they are equally long and their entries are
  alike at every position. -/
  compared : ∀ c d : Chain α, (c == d) = true ↔ List.Forall₂ Same c.entries d.entries
  /-- They compare as equal when they are equal. -/
  equal : ∀ c d : Chain α, (c == d) = true ↔ c = d
  /-- No chain compares as equal to a beginning of itself. -/
  proper : ∀ c d : Chain α, d.entries <+: c.entries → d.entries ≠ c.entries →
    (c == d) = false ∧ (d == c) = false

theorem asLists {α : Type} [BEq α] [LawfulBEq α] {copyOf : α → α} {Same : α → α → Prop}
    (hcopy : ∀ a, copyOf a = a) (hsame : ∀ a b, (a == b) = true ↔ Same a b) :
    AsLists α copyOf Same := by
  have entriesOf : ∀ c : Chain α, listOf (some c) = c.entries := toList_eq_entries
  refine ⟨?linked, ?visited, ?copied, ?counted, ?compared, ?equal, ?proper⟩
  case linked =>
    intro l
    refine ⟨fun l' => ?_, ?_⟩
    · rw [yields_iff, listOf_ofList?]
    · rw [← length_listOf_eq_zero_iff, listOf_ofList?, List.length_eq_zero_iff]
  case visited =>
    intro c
    refine ⟨fun l => ?_, toList_eq_entries c⟩
    rw [yields_iff, entriesOf]
  case copied =>
    intro c
    rw [copy_eq hcopy]
    refine ⟨fun l => ?_, beq_self_eq_true c⟩
    rw [yields_iff, entriesOf]
  case counted => exact size_eq_length
  case compared =>
    intro c d
    rw [beq_iff_forall₂]
    simp only [hsame]
  case equal => exact fun c d => beq_iff_eq
  case proper =>
    intro c d _ hne
    refine ⟨beq_eq_false_iff_ne.2 ?_, beq_eq_false_iff_ne.2 ?_⟩
    · rintro rfl
      exact hne rfl
    · rintro rfl
      exact hne rfl

end Chain

/-- Chains of actions and chains of commands are linked, visited, copied,
counted and compared as their lists are. -/
theorem chains_as_lists :
    Chain.AsLists Action id Action.Agree ∧
      Chain.AsLists Command Command.copy Command.Agree := by
  refine ⟨?actions, ?commands⟩
  case actions => exact Chain.asLists (fun _ => rfl) Action.beq_iff_agree
  case commands => exact Chain.asLists Command.copy_eq Command.beq_iff_agree

end Adventure
