/-
# The codec of rule blocks

A block is written as its conditions and the byte 255, and behind them its
actions and the byte 255 again.  Among the parameters 255 is a number like
any other, and so the end of a block can only be told by reading it from its
beginning.

`BlockSpans m p cs as e` says that a block fills the snapshot from `p` to
`e`, and it speaks of nothing but bytes.  The main statement is
`readBlock_codec`: a block is read exactly where one stands, and what is read
is what stands there.  The same bytes are a block in one way only, and where
no block stands the fault is at the first byte that is missing.
-/
import Adventure.Proofs.Rules.Format

namespace Adventure
namespace Rules

variable {m : Snapshot} {part : Section} {p e e' : Nat} {cs cs' : List Condition}
  {as as' : List Action} {f : Fault}

/-- The bytes of the snapshot from `p` to `e` are the block of these conditions and actions. -/
structure BlockSpans (m : Snapshot) (p : Nat) (cs : List Condition) (as : List Action)
    (e : Nat) : Prop where
  conditions : ∀ c ∈ cs, c.WellFormed
  actions : ∀ a ∈ as, a.WellFormed Version.v0.arguments
  held : m.Holds p (blockBytes cs as)
  extent : e = p + (blockBytes cs as).length
  inside : e ≤ m.size

/-! ## Where a block stands -/

theorem blockBytes_ne_nil (cs : List Condition) (as : List Action) : blockBytes cs as ≠ [] := by
  simp [blockBytes]

/-- A block is read exactly where one stands. -/
theorem readBlock_eq_ok_iff_spans {chain : Option (Chain Action)} :
    (readBlock m part Version.v0.arguments p).result = .ok (cs, chain) ↔
      ∃ as e, BlockSpans m p cs as e ∧ Chain.listOf chain = as := by
  rw [readBlock_eq_ok_iff_holds]
  constructor
  · rintro ⟨as, hcs, has, hheld, hchain⟩
    have hinside := hheld.le_size (blockBytes_ne_nil cs as)
    exact ⟨as, _, ⟨hcs, has, hheld, rfl, hinside⟩, Chain.listOf_eq_iff.2 hchain⟩
  · rintro ⟨as, e, h, hchain⟩
    exact ⟨as, h.conditions, h.actions, h.held, Chain.listOf_eq_iff.1 hchain⟩

/-- The conditions of a block are read by themselves, up to where its actions begin. -/
theorem BlockSpans.readConditions (part : Section) (h : BlockSpans m p cs as e) :
    (Rules.readConditions m part p).result =
      .ok (cs, p + (cs.flatMap Condition.bytes).length + 1) := by
  obtain ⟨hconditions, -⟩ := Snapshot.holds_append.1 h.held
  exact readConditions_eq_ok_iff_holds.2 ⟨h.conditions, hconditions, rfl⟩

/-- No two blocks stand at one place. -/
theorem BlockSpans.unique (h : BlockSpans m p cs as e) (h' : BlockSpans m p cs' as' e') :
    cs = cs' ∧ as = as' ∧ e = e' := by
  have read : ∀ {cs as e}, BlockSpans m p cs as e →
      (readBlock m .responses Version.v0.arguments p).result = .ok (cs, Chain.ofList? as) := by
    intro cs as e h
    exact readBlock_eq_ok_iff_spans.2 ⟨as, e, h, Chain.listOf_ofList? as⟩
  have same := (read h).symm.trans (read h')
  obtain ⟨rfl, hchain⟩ : cs = cs' ∧ Chain.ofList? as = Chain.ofList? as' := by simpa using same
  obtain rfl : as = as' := by
    rw [← Chain.listOf_ofList? as, hchain, Chain.listOf_ofList?]
  exact ⟨rfl, rfl, h.extent.trans h'.extent.symm⟩

/-! ## Where none stands -/

theorem readConditions_fault (h : (readConditions m part p).result = .error f) :
    f = .malformed part (max p m.size) :=
  Snapshot.walk_fault (r := conditions m part) (fun _ _ _ h => conditionAt_inside h)
    (fun _ _ h => conditionAt_fault h) h

theorem readActions_fault (h : (readActions m part Version.v0.arguments p).result = .error f) :
    f = .malformed part (max p m.size) :=
  Snapshot.walk_fault (r := actions m part Version.v0.arguments) (fun _ _ _ h => actionAt_inside h)
    (fun _ _ h => actionAt_fault h) (Reading.error_of_bind (fun _ => ⟨_, rfl⟩) h)

/-- Where a block cannot be read, the first missing byte is to blame. -/
theorem readBlock_fault (h : (readBlock m part Version.v0.arguments p).result = .error f) :
    f = .malformed part (max p m.size) := by
  rcases Reading.bind_eq_error_iff.1 h with h | ⟨⟨cs, next⟩, hcs, h⟩
  · exact readConditions_fault h
  obtain ⟨-, hheld, rfl⟩ := readConditions_eq_ok_iff_holds.1 hcs
  have hinside := hheld.le_size (by simp)
  rw [List.length_append, List.length_singleton] at hinside
  rw [readActions_fault (Reading.error_of_bind (fun _ => ⟨_, rfl⟩) h)]
  -- The conditions end inside the snapshot, so what is missing lies behind it.
  congr 1
  omega

/-! ## Reading by the format -/

/-- What reading a block at `p` comes to, told by its bytes alone. -/
structure BlockCodec (m : Snapshot) (part : Section) (p : Nat) : Prop where
  /-- A block is read where one stands, and without actions it has no chain. -/
  block : ∀ cs chain, (readBlock m part Version.v0.arguments p).result = .ok (cs, chain) ↔
    ∃ as e, BlockSpans m p cs as e ∧ Chain.listOf chain = as ∧ (chain = none ↔ as = [])
  /-- Its actions carry as many parameters as the version says. -/
  arity : ∀ cs as e, BlockSpans m p cs as e →
    ∀ a ∈ as, a.params.length = Version.v0.arguments.count a.opcode
  /-- Bytes are a block in one way only. -/
  unique : ∀ cs as e cs' as' e', BlockSpans m p cs as e → BlockSpans m p cs' as' e' →
    cs = cs' ∧ as = as' ∧ e = e'
  /-- The cursor behind the conditions is the place behind their terminator. -/
  cursor : ∀ cs as e, BlockSpans m p cs as e →
    (readConditions m part p).result = .ok (cs, p + (cs.flatMap Condition.bytes).length + 1)
  /-- Where no block stands, the first missing byte is at fault. -/
  fault : ∀ f, (readBlock m part Version.v0.arguments p).result = .error f ↔
    f = .malformed part (max p m.size) ∧ ∀ cs as e, ¬ BlockSpans m p cs as e

/-- Blocks of the known version are read by their format, from every place of
every snapshot. -/
theorem readBlock_codec (m : Snapshot) (part : Section) (p : Nat) : BlockCodec m part p := by
  refine ⟨?block, ?arity, ?unique, ?cursor, ?fault⟩
  case block =>
    intro cs chain
    rw [readBlock_eq_ok_iff_spans]
    constructor
    · rintro ⟨as, e, h, hlist⟩
      refine ⟨as, e, h, hlist, ?_⟩
      rw [Chain.listOf_eq_iff.1 hlist]
      cases as <;> simp [Chain.ofList?_cons]
    · rintro ⟨as, e, h, hlist, -⟩
      exact ⟨as, e, h, hlist⟩
  case arity =>
    intro cs as e h a ha
    have hlen := (h.actions a ha).length_bytes (Version.count_le_two _)
    exact Nat.succ.inj hlen
  case unique => exact fun cs as e cs' as' e' h h' => h.unique h'
  case cursor => exact fun cs as e h => h.readConditions part
  case fault =>
    intro f
    constructor
    · intro h
      refine ⟨readBlock_fault h, fun cs as e hblock => ?_⟩
      rw [readBlock_eq_ok_iff_spans.2 ⟨as, e, hblock, Chain.listOf_ofList? as⟩] at h
      cases h
    · rintro ⟨rfl, hnone⟩
      cases hr : (readBlock m part Version.v0.arguments p).result with
      | error g => rw [readBlock_fault hr]
      | ok out =>
          obtain ⟨as, e, h, -⟩ := readBlock_eq_ok_iff_spans.1 hr
          exact absurd h (hnone out.1 as e)

end Rules
end Adventure
