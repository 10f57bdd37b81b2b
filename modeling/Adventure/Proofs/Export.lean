/-
# The export loses nothing

Two databases with one export are one database.  Nothing of a database is
left out of its document but what is absent, and what is absent is told by
that: entries are told by their keys, and blocks by their paths.  A command
goes on as long as blocks below its table come, and a rule table as long as
blocks of its own do; the rows of the exits come one behind the other, and
one without exits is there as a block without entries.

The main statement is `toToml_lossless`.  It holds of every writer that writes
no two documents alike, and the one used here is such a writer.
-/
import Adventure.Database.Export
import Adventure.Proofs.Chain
import Adventure.Proofs.OrderedMap
import Adventure.Proofs.Toml.Document

namespace Adventure
namespace Database

open Toml (Scalar Value Entry Block Document)

/-! ## Entries -/

theorem byteEntry_inj {k k' : String} {b b' : UInt8} :
    byteEntry k b = byteEntry k' b' ↔ k = k' ∧ b = b' := by
  simp [byteEntry, UInt8.toNat_inj]

/-- A number that may be absent is there when its key is. -/
theorem delimits_presentEntries (k : String) :
    Delimits (presentEntries k) (Avoids fun e => e.key = k) := by
  refine delimits_run ?_ ?_
  · rintro (_ | b) (_ | b') h
    · rfl
    · cases h
    · cases h
    · rw [(byteEntry_inj.1 (List.cons.inj h).1).2]
  · intro b e he
    obtain ⟨n, -, rfl⟩ := List.mem_map.1 he
    rfl

theorem textsEntry_inj {k : String} {texts texts' : List String} :
    textsEntry k texts = textsEntry k texts' ↔ texts = texts' := by
  have strings : Function.Injective Scalar.string := fun s s' h => Scalar.string.inj h
  simp [textsEntry, strings.list_map.eq_iff]

/-! ## Blocks of one item -/

theorem conditionBlock_injective (table : String) :
    Function.Injective (conditionBlock table) := by
  rintro ⟨opcode, param1, param2⟩ ⟨opcode', param1', param2'⟩ h
  simp only [conditionBlock, Block.mk.injEq, List.cons.injEq, byteEntry_inj, true_and] at h
  obtain ⟨rfl, rfl, hparam2⟩ := h
  rw [(delimits_presentEntries "param2").injective avoids_nil hparam2]

/-- Each parameter that may be absent has a key of its own. -/
theorem actionBlock_injective (table : String) : Function.Injective (actionBlock table) := by
  have second : Delimits (presentEntries "param2") fun u => u = [] :=
    (delimits_presentEntries "param2").mono fun u hu => hu ▸ avoids_nil
  have params := (delimits_presentEntries "param1").pair second fun b u hu => by
    have behind : Avoids (fun e : Entry => e.key = "param1") u := hu ▸ avoids_nil
    refine behind.append fun e he => ?_
    obtain ⟨n, -, rfl⟩ := List.mem_map.1 he
    exact (by decide : "param2" ≠ "param1")
  rintro ⟨opcode, param1, param2⟩ ⟨opcode', param1', param2'⟩ h
  simp only [actionBlock, Block.mk.injEq, List.cons.injEq, byteEntry_inj, true_and] at h
  obtain ⟨rfl, hparams⟩ := h
  have same : (param1, param2) = (param1', param2') := params.injective rfl hparams
  cases same
  rfl

theorem exitsBlock_injective : Function.Injective exitsBlock := by
  have entry : Function.Injective fun p : UInt8 × UInt8 => byteEntry (toString p.1.toNat) p.2 := by
    rintro ⟨direction, destination⟩ ⟨direction', destination'⟩ h
    obtain ⟨hkey, rfl⟩ := byteEntry_inj.1 h
    obtain rfl := UInt8.toNat_inj.1 (Numeral.decimal_injective (congrArg String.toList hkey))
    rfl
  exact fun a b h => OrderedMap.ext (entry.list_map (congrArg Block.entries h))

theorem vocabularyBlock_injective : Function.Injective vocabularyBlock := by
  have entry : Function.Injective fun p : String × UInt8 => byteEntry p.1 p.2 := by
    rintro ⟨word, token⟩ ⟨word', token'⟩ h
    obtain ⟨rfl, rfl⟩ := byteEntry_inj.1 h
    rfl
  exact fun a b h => OrderedMap.ext (entry.list_map (congrArg Block.entries h))

/-! ## Rule tables -/

/-- A block below a table. -/
def IsPart (b : Block) : Prop :=
  1 < b.path.length

theorem delimits_conditions (table : String) :
    Delimits (fun l : List Condition => l.map (conditionBlock table))
      (Avoids fun b => b.path = [table, "conditions"]) :=
  delimits_run (conditionBlock_injective table).list_map fun l b hb => by
    obtain ⟨c, -, rfl⟩ := List.mem_map.1 hb
    rfl

/-- No chain has no blocks, and each other one has some. -/
theorem delimits_actions (table : String) :
    Delimits (fun t : Option (Chain Action) => (Chain.listOf t).map (actionBlock table))
      (Avoids IsPart) := by
  have blocks : Delimits (fun l : List Action => l.map (actionBlock table)) (Avoids IsPart) :=
    delimits_run (actionBlock_injective table).list_map fun l b hb => by
      obtain ⟨a, -, rfl⟩ := List.mem_map.1 hb
      exact Nat.lt_succ_self 1
  exact blocks.comp Chain.listOf_injective

/-- A command is told by its blocks, as long as no block below a table comes behind. -/
theorem delimits_commandBlocks (table : String) :
    Delimits (commandBlocks table) (Avoids IsPart) := by
  have parts := (delimits_conditions table).pair (delimits_actions table) fun actions u hu => by
    have behind : Avoids (fun b : Block => b.path = [table, "conditions"]) u :=
      hu.mono fun b hb => by rw [IsPart, hb]; exact Nat.lt_succ_self 1
    refine behind.append fun b hb => ?_
    obtain ⟨a, -, rfl⟩ := List.mem_map.1 hb
    simp [actionBlock]
  intro c d u v hu hv heq
  obtain ⟨hhead, hrest⟩ := List.cons.inj heq
  simp only [Block.mk.injEq, List.cons.injEq, byteEntry_inj, true_and] at hhead
  obtain ⟨hword1, hword2, -⟩ := hhead
  obtain ⟨hparts, huv⟩ :=
    parts (a := (c.conditions, c.actions)) (b := (d.conditions, d.actions)) hu hv hrest
  obtain ⟨hconditions, hactions⟩ := Prod.mk.inj hparts
  exact ⟨eq_of_beq ((Command.beq_iff c d).2 ⟨hword1, hword2, hconditions, hactions⟩), huv⟩

/-- What may stand in front of the blocks of other tables only. -/
theorem avoids_tableBlocks {P : Block → Prop} {table : String}
    (hP : ∀ b : Block, b.path = [table] → ¬ P b) (t : CommandTable) {u : List Block}
    (hu : Avoids P u) : Avoids P (tableBlocks table t ++ u) := by
  unfold tableBlocks
  cases Chain.listOf t with
  | nil => exact hu
  | cons c l => exact avoids_cons.2 (hP _ rfl)

/-- A rule table is told by its blocks, as long as no block of it comes behind. -/
theorem delimits_tableBlocks (table : String) :
    Delimits (tableBlocks table) (Avoids fun b => b.path = [table] ∨ IsPart b) := by
  refine ((delimits_commandBlocks table).flatMap ?next ?stop ?item).comp Chain.listOf_injective
  case next => exact fun c u => avoids_cons.2 (Nat.lt_irrefl 1)
  case stop => exact fun u hu => hu.mono fun b => .inr
  case item => exact fun c u hu => avoids_cons.1 hu (.inl rfl)

/-! ## Rows of exits -/

theorem delimits_rows :
    Delimits (fun l : List Exits => l.map exitsBlock) (Avoids fun b => b.path = ["connections"]) :=
  delimits_run exitsBlock_injective.list_map fun l b hb => by
    obtain ⟨e, -, rfl⟩ := List.mem_map.1 hb
    rfl

theorem avoids_rows {P : Block → Prop} (hP : ∀ b : Block, b.path = ["connections"] → ¬ P b)
    (l : List Exits) {u : List Block} (hu : Avoids P u) : Avoids P (l.map exitsBlock ++ u) := by
  refine hu.append fun b hb => ?_
  obtain ⟨e, -, rfl⟩ := List.mem_map.1 hb
  exact hP _ rfl

/-! ## Documents -/

/-- A path of one key is that of no other table and of no block below one. -/
theorem not_of_path {table other : String} (hne : table ≠ other) (b : Block)
    (hb : b.path = [table]) : ¬ (b.path = [other] ∨ IsPart b) := by
  rw [IsPart, hb]
  simpa using hne

/-- The rule tables and the exits are told by the blocks behind the vocabulary. -/
theorem delimits_tables :
    Delimits (fun p : CommandTable × CommandTable × List Exits =>
      tableBlocks "responses" p.1 ++ (tableBlocks "processes" p.2.1 ++ p.2.2.map exitsBlock))
      fun u => u = [] := by
  have rows : Delimits (fun l : List Exits => l.map exitsBlock) fun u => u = [] :=
    delimits_rows.mono fun u hu => hu ▸ avoids_nil
  have processes := (delimits_tableBlocks "processes").pair rows fun l u hu =>
    avoids_rows (not_of_path (by decide)) l (hu ▸ avoids_nil)
  refine (delimits_tableBlocks "responses").pair processes fun p u hu => ?_
  rw [List.append_assoc]
  refine avoids_tableBlocks (not_of_path (by decide)) p.1 ?_
  exact avoids_rows (not_of_path (by decide)) p.2 (hu ▸ avoids_nil)

/-- No two databases have one document. -/
theorem document_injective : Function.Injective document := by
  intro a b h
  have hroot := congrArg Document.root h
  obtain ⟨hvocabulary, htables⟩ := List.cons.inj (congrArg Document.blocks h)
  rw [List.append_assoc, List.append_assoc] at htables
  have hparts : (a.responses, a.processes, a.connections) =
      (b.responses, b.processes, b.connections) := delimits_tables.injective rfl htables
  obtain ⟨hresponses, htables⟩ := Prod.mk.inj hparts
  obtain ⟨hprocesses, hconnections⟩ := Prod.mk.inj htables
  have hvocabulary := vocabularyBlock_injective hvocabulary
  have numbers : Function.Injective fun b : UInt8 => Scalar.integer b.toNat :=
    fun b b' h => UInt8.toNat_inj.1 (Scalar.integer.inj h)
  simp only [document, hconnections, List.cons_append, List.nil_append, List.cons.injEq,
    textsEntry_inj, List.append_cancel_left_eq, byteEntry_inj, true_and, and_true,
    Entry.mk.injEq, Value.array.injEq, numbers.list_map.eq_iff] at hroot
  obtain ⟨hlocations, hobjects, hmessages, hpositions, hcarried⟩ := hroot
  cases a
  cases b
  simp only [mk.injEq]
  exact ⟨hlocations, hobjects, hmessages, hvocabulary, hresponses, hprocesses, hconnections,
    hpositions, hcarried⟩

/-! ## Comparing databases -/

/-- A database is equal to itself as databases are compared. -/
theorem beq_self (d : Database) : (d == d) = true := by
  change (d.locations == d.locations && d.objects == d.objects && d.messages == d.messages &&
    d.vocabulary == d.vocabulary && d.responses == d.responses && d.processes == d.processes &&
    d.connections == d.connections && d.positions == d.positions && d.carried == d.carried) = true
  simp

/-! ## The export -/

/-- What the exports of two databases tell of them. -/
structure Lossless (a b : Database) : Prop where
  /-- One text is that of one database.  What is absent in one is absent in
  the other, be it a rule table, the actions of a command or a parameter. -/
  text : a.toToml = b.toToml ↔ a = b
  /-- They are then equal also as databases are compared. -/
  equal : a.toToml = b.toToml → (a == b) = true
  /-- The words come in one order, and so do the exits of every location;
  a location without exits has its place among the others. -/
  order : a.toToml = b.toToml → a.vocabulary.entries = b.vocabulary.entries ∧
    a.connections.length = b.connections.length ∧
    ∀ location, (a.exits? location).map OrderedMap.entries =
      (b.exits? location).map OrderedMap.entries
  /-- It is so with every writer that writes no two documents alike. -/
  written : ∀ write : Toml.Document → String, Function.Injective write →
    (write a.document = write b.document ↔ a = b)

/-- No two databases have one export. -/
theorem toToml_lossless (a b : Database) : Lossless a b := by
  have written : ∀ write : Toml.Document → String, Function.Injective write →
      (write a.document = write b.document ↔ a = b) :=
    fun write hwrite => (hwrite.comp document_injective).eq_iff
  have text : a.toToml = b.toToml ↔ a = b := written Toml.Document.text Toml.Document.text_injective
  refine ⟨text, ?equal, ?order, written⟩
  case equal =>
    intro h
    rw [← text.1 h]
    exact a.beq_self
  case order =>
    intro h
    rw [text.1 h]
    exact ⟨rfl, rfl, fun _ => rfl⟩

end Database
end Adventure
