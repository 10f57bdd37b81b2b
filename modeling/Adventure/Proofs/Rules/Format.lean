/-
# The format of the rule tables

A condition and an action are well formed when their opcode is none of the
terminators and their parameters are as many as the opcode says.  The
statements below say that exactly those are read, and only where their bytes
stand: a list of conditions, a list of actions and the block of both are read
back wherever they are written.
-/
import Adventure.Proofs.Held
import Adventure.Rules.Bytecode

namespace Adventure

/-! ## Well-formed instructions -/

/-- The opcode is one, and there is a second parameter exactly above opcode 12. -/
def Condition.WellFormed (c : Condition) : Prop :=
  c.opcode ≠ endOfList ∧ (c.param2.isSome ↔ Condition.lastSingle < c.opcode)

/-- The opcode is one, and of its parameters the first two are there. -/
def Action.WellFormed (arguments : ArgumentTable) (a : Action) : Prop :=
  a.opcode ≠ endOfList ∧ (a.param1.isSome ↔ 1 ≤ arguments.count a.opcode) ∧
    (a.param2.isSome ↔ 2 ≤ arguments.count a.opcode)

instance (c : Condition) : Decidable c.WellFormed :=
  inferInstanceAs (Decidable (_ ∧ _))

instance (arguments : ArgumentTable) (a : Action) : Decidable (a.WellFormed arguments) :=
  inferInstanceAs (Decidable (_ ∧ _ ∧ _))

/-- No action of the known version has more than two parameters. -/
theorem Version.count_le_two (opcode : UInt8) : Version.v0.arguments.count opcode ≤ 2 := by
  simp only [Version.arguments]
  split
  · omega
  · split <;> omega

/-- All parameters of a well-formed action are kept when there are at most two. -/
theorem Action.WellFormed.length_bytes {arguments : ArgumentTable} {a : Action}
    (h : a.WellFormed arguments) (hc : arguments.count a.opcode ≤ 2) :
    a.bytes.length = arguments.count a.opcode + 1 := by
  obtain ⟨opcode, param1, param2⟩ := a
  obtain ⟨-, h1, h2⟩ := h
  cases param1 <;> cases param2 <;> simp [Action.bytes, Action.params] at h1 h2 hc ⊢ <;> omega

/-! ## Rules as written -/

/-- A rule as written: its two bytes, its conditions and its actions. -/
structure Rule where
  first : UInt8
  second : UInt8
  conditions : List Condition
  actions : List Action
deriving DecidableEq

namespace Rule

/-- The first byte does not end the table, and conditions and actions are well formed. -/
structure WellFormed (rule : Rule) : Prop where
  first_ne : rule.first ≠ 0
  conditions : ∀ c ∈ rule.conditions, c.WellFormed
  actions : ∀ a ∈ rule.actions, a.WellFormed Version.v0.arguments

/-- The command that a rule is in a table of a kind: the words of a process
are not kept. -/
def command (rule : Rule) : CommandKind → Command
  | .response => ⟨rule.first, rule.second, rule.conditions, Chain.ofList? rule.actions⟩
  | .process => ⟨anyWord, anyWord, rule.conditions, Chain.ofList? rule.actions⟩

end Rule

namespace Rules

variable {m : Snapshot} {part : Section} {p : Nat}

/-! ## Conditions -/

theorem conditionAt_eq_record_iff {c : Condition} {k : Nat} :
    (conditionAt m part p).result = .ok (.record c k) ↔
      c.WellFormed ∧ k + 1 = c.bytes.length ∧ m.Holds p c.bytes := by
  simp only [conditionAt, Reading.bind_eq_ok_iff, Snapshot.byteAt_eq_ok_iff]
  constructor
  · rintro ⟨opcode, h0, h⟩
    split at h
    · cases h
    · rename_i hne
      obtain ⟨param1, h1, h⟩ := Reading.bind_eq_ok_iff.1 h
      rw [Snapshot.byteAt_eq_ok_iff] at h1
      split at h
      · rename_i hle
        cases h
        exact ⟨⟨hne, by simpa using hle⟩, rfl, by simpa [Condition.bytes] using ⟨h0, h1⟩⟩
      · rename_i hgt
        obtain ⟨param2, h2, h⟩ := Reading.bind_eq_ok_iff.1 h
        rw [Snapshot.byteAt_eq_ok_iff] at h2
        cases h
        exact ⟨⟨hne, by simpa using hgt⟩, rfl, by simpa [Condition.bytes] using ⟨h0, h1, h2⟩⟩
  · rintro ⟨⟨hne, hparam⟩, hk, h⟩
    obtain ⟨opcode, param1, param2⟩ := c
    simp only [Condition.bytes, Snapshot.holds_cons] at h hk
    obtain ⟨h0, h1, h2⟩ := h
    refine ⟨opcode, h0, ?_⟩
    rw [if_neg hne, Reading.bind_eq_ok_iff]
    refine ⟨param1, Snapshot.byteAt_eq_ok_iff.2 h1, ?_⟩
    cases param2 with
    | none =>
        have hle : opcode ≤ Condition.lastSingle := by simpa using hparam
        rw [if_pos hle]
        cases hk
        rfl
    | some b =>
        have hgt : ¬ opcode ≤ Condition.lastSingle := by simpa using hparam
        rw [if_neg hgt, Reading.bind_eq_ok_iff]
        refine ⟨b, Snapshot.byteAt_eq_ok_iff.2 (by simpa using h2), ?_⟩
        cases hk
        rfl

theorem conditionAt_eq_stop_iff {w : Nat} :
    (conditionAt m part p).result = .ok (.stop w) ↔ w = 1 ∧ m.get? p = some endOfList := by
  refine Snapshot.closed_eq_stop_iff fun opcode => Reading.bind_ne_ok fun param1 => ?_
  split
  · intro h
    cases h
  · refine Reading.bind_ne_ok fun param2 => ?_
    intro h
    cases h

theorem readConditions_eq_ok_iff {l : List Condition} {next : Nat} :
    (readConditions m part p).result = .ok (l, next) ↔
      ∃ q, (conditions m part).Passes p l q ∧ m.get? q = some endOfList ∧ next = q + 1 :=
  Snapshot.walk_closed_iff (k := 0) fun _ _ => conditionAt_eq_stop_iff

/-- A condition that is read is inside the snapshot. -/
theorem conditionAt_inside {c : Condition} {k : Nat}
    (h : (conditionAt m part p).result = .ok (.record c k)) : p + (k + 1) ≤ m.size := by
  obtain ⟨-, hk, hheld⟩ := conditionAt_eq_record_iff.1 h
  rw [hk]
  exact hheld.le_size (by simp [Condition.bytes])

/-- Where a condition cannot be read, its first missing byte is to blame. -/
theorem conditionAt_fault {f : Fault} (h : (conditionAt m part p).result = .error f) :
    f = .malformed part (max p m.size) := by
  rcases Reading.bind_eq_error_iff.1 h with h | ⟨opcode, h0, h⟩
  · exact Snapshot.byteAt_fault (by omega) h
  have r0 := Snapshot.lt_size_of_get? (Snapshot.byteAt_eq_ok_iff.1 h0)
  split at h
  · cases h
  rcases Reading.bind_eq_error_iff.1 h with h | ⟨param1, h1, h⟩
  · exact Snapshot.byteAt_fault (by omega) h
  have r1 := Snapshot.lt_size_of_get? (Snapshot.byteAt_eq_ok_iff.1 h1)
  split at h
  · cases h
  exact Snapshot.byteAt_fault (by omega) (Reading.error_of_bind (fun _ => ⟨_, rfl⟩) h)

/-- Conditions are passed exactly where they are written. -/
theorem conditions_passes_iff {l : List Condition} {q : Nat} :
    (conditions m part).Passes p l q ↔
      (∀ c ∈ l, c.WellFormed) ∧ m.Holds p (l.flatMap Condition.bytes) ∧
        q = p + (l.flatMap Condition.bytes).length :=
  Snapshot.passes_iff_holds (by simp [Condition.bytes]) fun _ _ _ => conditionAt_eq_record_iff

/-- Conditions are read exactly where they are written. -/
theorem readConditions_eq_ok_iff_holds {l : List Condition} {next : Nat} :
    (readConditions m part p).result = .ok (l, next) ↔
      (∀ c ∈ l, c.WellFormed) ∧ m.Holds p (l.flatMap Condition.bytes ++ [endOfList]) ∧
        next = p + (l.flatMap Condition.bytes).length + 1 := by
  simp only [readConditions_eq_ok_iff, conditions_passes_iff, Snapshot.holds_append,
    Snapshot.holds_cons, Snapshot.holds_nil, and_true]
  constructor
  · rintro ⟨q, ⟨hl, hheld, rfl⟩, hend, rfl⟩
    exact ⟨hl, ⟨hheld, hend⟩, rfl⟩
  · rintro ⟨hl, ⟨hheld, hend⟩, rfl⟩
    exact ⟨_, ⟨hl, hheld, rfl⟩, hend, rfl⟩

/-! ## Actions -/

theorem parameterAt_eq_ok_iff {count k : Nat} {o : Option UInt8} :
    (parameterAt m part p count k).result = .ok o ↔
      (o.isSome ↔ k ≤ count) ∧ ∀ b, o = some b → m.get? (p + k) = some b := by
  unfold parameterAt
  split
  · rename_i hk
    simp only [Reading.bind_eq_ok_iff, Snapshot.byteAt_eq_ok_iff]
    constructor
    · rintro ⟨b, hb, h⟩
      cases h
      exact ⟨by simpa using hk, fun b' h => by cases h; exact hb⟩
    · rintro ⟨hsome, hb⟩
      obtain ⟨b, rfl⟩ := Option.isSome_iff_exists.1 (hsome.2 hk)
      exact ⟨b, hb b rfl, rfl⟩
  · rename_i hk
    constructor
    · intro h
      cases h
      exact ⟨by simpa using hk, fun b h => nomatch h⟩
    · rintro ⟨hsome, -⟩
      cases o with
      | none => rfl
      | some b => exact absurd (hsome.1 rfl) hk

theorem actionAt_eq_record_iff {arguments : ArgumentTable} {a : Action} {k : Nat} :
    (actionAt m part arguments p).result = .ok (.record a k) ↔
      a.WellFormed arguments ∧ k = arguments.count a.opcode ∧ m.Holds p a.bytes := by
  simp only [actionAt, Reading.bind_eq_ok_iff, Snapshot.byteAt_eq_ok_iff]
  constructor
  · rintro ⟨opcode, h0, h⟩
    split at h
    · cases h
    · rename_i hne
      obtain ⟨param1, h1, h⟩ := Reading.bind_eq_ok_iff.1 h
      obtain ⟨param2, h2, h⟩ := Reading.bind_eq_ok_iff.1 h
      obtain ⟨hs1, hb1⟩ := parameterAt_eq_ok_iff.1 h1
      obtain ⟨hs2, hb2⟩ := parameterAt_eq_ok_iff.1 h2
      cases h
      refine ⟨⟨hne, hs1, hs2⟩, rfl, ?_⟩
      -- A second parameter without a first one would need two parameters and none.
      cases param1 <;> cases param2 <;>
        simp_all [Action.bytes, Action.params, Nat.add_assoc]
  · rintro ⟨⟨hne, hs1, hs2⟩, rfl, h⟩
    obtain ⟨opcode, param1, param2⟩ := a
    obtain ⟨h0, hp⟩ := Snapshot.holds_cons.1 h
    refine ⟨opcode, h0, ?_⟩
    rw [if_neg hne, Reading.bind_eq_ok_iff]
    refine ⟨param1, parameterAt_eq_ok_iff.2 ⟨hs1, ?_⟩, ?_⟩
    · rintro b rfl
      exact (Snapshot.holds_cons.1 hp).1
    rw [Reading.bind_eq_ok_iff]
    refine ⟨param2, parameterAt_eq_ok_iff.2 ⟨hs2, ?_⟩, rfl⟩
    rintro b rfl
    have h1 : param1.isSome := hs1.2 (Nat.le_of_succ_le (hs2.1 rfl))
    obtain ⟨b1, rfl⟩ := Option.isSome_iff_exists.1 h1
    exact (Snapshot.holds_cons.1 (Snapshot.holds_cons.1 hp).2).1

theorem actionAt_eq_stop_iff {arguments : ArgumentTable} {w : Nat} :
    (actionAt m part arguments p).result = .ok (.stop w) ↔
      w = 1 ∧ m.get? p = some endOfList := by
  refine Snapshot.closed_eq_stop_iff fun opcode => Reading.bind_ne_ok fun param1 => ?_
  refine Reading.bind_ne_ok fun param2 => ?_
  intro h
  cases h

theorem readActions_eq_ok_iff {arguments : ArgumentTable} {chain : Option (Chain Action)} :
    (readActions m part arguments p).result = .ok chain ↔
      ∃ l q, (actions m part arguments).Passes p l q ∧ m.get? q = some endOfList ∧
        chain = Chain.ofList? l := by
  have walk : ∀ {l : List Action} {next : Nat},
      ((actions m part arguments).walk p).result = .ok (l, next) ↔
        ∃ q, (actions m part arguments).Passes p l q ∧ m.get? q = some endOfList ∧
          next = q + 1 :=
    Snapshot.walk_closed_iff (k := 0) fun _ _ => actionAt_eq_stop_iff
  constructor
  · intro h
    obtain ⟨⟨l, next⟩, hw, h⟩ := Reading.bind_eq_ok_iff.1 h
    obtain ⟨q, hpass, hend, -⟩ := walk.1 hw
    cases h
    exact ⟨l, q, hpass, hend, rfl⟩
  · rintro ⟨l, q, hpass, hend, rfl⟩
    exact Reading.bind_eq_ok_iff.2 ⟨_, walk.2 ⟨q, hpass, hend, rfl⟩, rfl⟩

/-- A parameter cannot be read when there is one and its byte is missing. -/
theorem parameterAt_eq_error_iff {count k : Nat} {f : Fault} :
    (parameterAt m part p count k).result = .error f ↔
      k ≤ count ∧ (m.byteAt part p k).result = .error f := by
  unfold parameterAt
  split
  · rename_i hk
    constructor
    · intro h
      exact ⟨hk, Reading.error_of_bind (fun _ => ⟨_, rfl⟩) h⟩
    · rintro ⟨-, h⟩
      exact Reading.bind_eq_error_iff.2 (.inl h)
  · rename_i hk
    constructor
    · intro h
      cases h
    · rintro ⟨hk', -⟩
      exact absurd hk' hk

/-- A parameter that is read is inside the snapshot. -/
theorem parameterAt_inside {count k : Nat} {o : Option UInt8}
    (h : (parameterAt m part p count k).result = .ok o) (hk : k ≤ count) : p + k < m.size := by
  obtain ⟨hsome, hheld⟩ := parameterAt_eq_ok_iff.1 h
  obtain ⟨b, hb⟩ := Option.isSome_iff_exists.1 (hsome.2 hk)
  exact Snapshot.lt_size_of_get? (hheld b hb)

/-- Where an action cannot be read, its first missing byte is to blame. -/
theorem actionAt_fault {arguments : ArgumentTable} {f : Fault}
    (h : (actionAt m part arguments p).result = .error f) :
    f = .malformed part (max p m.size) := by
  rcases Reading.bind_eq_error_iff.1 h with h | ⟨opcode, h0, h⟩
  · exact Snapshot.byteAt_fault (by omega) h
  have r0 := Snapshot.lt_size_of_get? (Snapshot.byteAt_eq_ok_iff.1 h0)
  split at h
  · cases h
  rcases Reading.bind_eq_error_iff.1 h with h | ⟨param1, h1, h⟩
  · exact Snapshot.byteAt_fault (by omega) (parameterAt_eq_error_iff.1 h).2
  obtain ⟨hcount, h2⟩ := parameterAt_eq_error_iff.1 (Reading.error_of_bind (fun _ => ⟨_, rfl⟩) h)
  have r1 := parameterAt_inside h1 (Nat.le_of_succ_le hcount)
  exact Snapshot.byteAt_fault (by omega) h2

/-- An action of the known version that is read is inside the snapshot. -/
theorem actionAt_inside {a : Action} {k : Nat}
    (h : (actionAt m part Version.v0.arguments p).result = .ok (.record a k)) :
    p + (k + 1) ≤ m.size := by
  obtain ⟨hwf, rfl, hheld⟩ := actionAt_eq_record_iff.1 h
  rw [← hwf.length_bytes (Version.count_le_two _)]
  exact hheld.le_size (by simp [Action.bytes])

/-- Actions of the known version are passed exactly where they are written. -/
theorem actions_passes_iff {l : List Action} {q : Nat} :
    (actions m part Version.v0.arguments).Passes p l q ↔
      (∀ a ∈ l, a.WellFormed Version.v0.arguments) ∧ m.Holds p (l.flatMap Action.bytes) ∧
        q = p + (l.flatMap Action.bytes).length := by
  refine Snapshot.passes_iff_holds (by simp [Action.bytes]) fun p a k => ?_
  refine actionAt_eq_record_iff.trans (and_congr_right fun ha => ?_)
  rw [ha.length_bytes (Version.count_le_two _), Nat.add_right_cancel_iff]

/-- Actions are read exactly where they are written. -/
theorem readActions_eq_ok_iff_holds {chain : Option (Chain Action)} :
    (readActions m part Version.v0.arguments p).result = .ok chain ↔
      ∃ l, (∀ a ∈ l, a.WellFormed Version.v0.arguments) ∧
        m.Holds p (l.flatMap Action.bytes ++ [endOfList]) ∧ chain = Chain.ofList? l := by
  simp only [readActions_eq_ok_iff, actions_passes_iff, Snapshot.holds_append,
    Snapshot.holds_cons, Snapshot.holds_nil, and_true]
  constructor
  · rintro ⟨l, q, ⟨hl, hheld, rfl⟩, hend, hchain⟩
    exact ⟨l, hl, ⟨hheld, hend⟩, hchain⟩
  · rintro ⟨l, hl, ⟨hheld, hend⟩, hchain⟩
    exact ⟨l, _, ⟨hl, hheld, rfl⟩, hend, hchain⟩

/-! ## Blocks -/

/-- A block as stored: its conditions and its actions, each list closed. -/
def blockBytes (conditions : List Condition) (actions : List Action) : List UInt8 :=
  conditions.flatMap Condition.bytes ++ [endOfList] ++
    (actions.flatMap Action.bytes ++ [endOfList])

theorem readBlock_eq_ok_iff {arguments : ArgumentTable} {cs : List Condition}
    {chain : Option (Chain Action)} :
    (readBlock m part arguments p).result = .ok (cs, chain) ↔
      ∃ next, (readConditions m part p).result = .ok (cs, next) ∧
        (readActions m part arguments next).result = .ok chain := by
  constructor
  · intro h
    obtain ⟨⟨cs', next⟩, hcs, h⟩ := Reading.bind_eq_ok_iff.1 h
    obtain ⟨chain', hchain, h⟩ := Reading.bind_eq_ok_iff.1 h
    cases h
    exact ⟨next, hcs, hchain⟩
  · rintro ⟨next, hcs, hchain⟩
    exact Reading.bind_eq_ok_iff.2 ⟨_, hcs, Reading.bind_eq_ok_iff.2 ⟨_, hchain, rfl⟩⟩

/-- A block is read exactly where it is written. -/
theorem readBlock_eq_ok_iff_holds {cs : List Condition} {chain : Option (Chain Action)} :
    (readBlock m part Version.v0.arguments p).result = .ok (cs, chain) ↔
      ∃ as, (∀ c ∈ cs, c.WellFormed) ∧ (∀ a ∈ as, a.WellFormed Version.v0.arguments) ∧
        m.Holds p (blockBytes cs as) ∧ chain = Chain.ofList? as := by
  have parts : ∀ as, m.Holds p (blockBytes cs as) ↔
      m.Holds p (cs.flatMap Condition.bytes ++ [endOfList]) ∧
        m.Holds (p + (cs.flatMap Condition.bytes).length + 1)
          (as.flatMap Action.bytes ++ [endOfList]) := by
    intro as
    rw [blockBytes, Snapshot.holds_append, List.length_append, ← Nat.add_assoc]
    rfl
  simp only [readBlock_eq_ok_iff, readConditions_eq_ok_iff_holds, readActions_eq_ok_iff_holds,
    parts]
  constructor
  · rintro ⟨next, ⟨hcs, h1, rfl⟩, as, has, h2, hchain⟩
    exact ⟨as, hcs, has, ⟨h1, h2⟩, hchain⟩
  · rintro ⟨as, hcs, has, ⟨h1, h2⟩, hchain⟩
    exact ⟨_, ⟨hcs, h1, rfl⟩, as, has, h2, hchain⟩

/-! ## Command tables -/

/-- An entry is read exactly where its first byte is not zero, its words and
the address of its block can be read, and so can the block. -/
theorem entryAt_eq_record_iff {kind : CommandKind} {arguments : ArgumentTable} {e : Entry}
    {k : Nat} :
    (entryAt m kind arguments p).result = .ok (.record e k) ↔
      ∃ first, m.get? p = some first ∧ first ≠ 0 ∧
        (wordsAt m kind p first).result = .ok (e.command.word1, e.command.word2) ∧
        (m.wordAt kind.part p 2).result = .ok e.block ∧
        (readBlock m kind.part arguments e.block).result =
          .ok (e.command.conditions, e.command.actions) ∧ k = 3 := by
  constructor
  · intro h
    obtain ⟨first, h0, h⟩ := Reading.bind_eq_ok_iff.1 h
    split at h
    · cases h
    · rename_i hne
      obtain ⟨words, hwords, h⟩ := Reading.bind_eq_ok_iff.1 h
      obtain ⟨block, hblock, h⟩ := Reading.bind_eq_ok_iff.1 h
      obtain ⟨body, hbody, h⟩ := Reading.bind_eq_ok_iff.1 h
      cases h
      exact ⟨first, Snapshot.byteAt_eq_ok_iff.1 h0, hne, hwords, hblock, hbody, rfl⟩
  · rintro ⟨first, h0, hne, hwords, hblock, hbody, rfl⟩
    refine Reading.bind_eq_ok_iff.2 ⟨first, Snapshot.byteAt_eq_ok_iff.2 h0, ?_⟩
    rw [if_neg hne]
    refine Reading.bind_eq_ok_iff.2 ⟨_, hwords, ?_⟩
    refine Reading.bind_eq_ok_iff.2 ⟨_, hblock, ?_⟩
    exact Reading.bind_eq_ok_iff.2 ⟨_, hbody, rfl⟩

theorem entryAt_eq_stop_iff {kind : CommandKind} {arguments : ArgumentTable} {w : Nat} :
    (entryAt m kind arguments p).result = .ok (.stop w) ↔ w = 1 ∧ m.get? p = some 0 := by
  refine Snapshot.closed_eq_stop_iff fun first => Reading.bind_ne_ok fun words => ?_
  refine Reading.bind_ne_ok fun block => Reading.bind_ne_ok fun body => ?_
  intro h
  cases h

theorem readCommands_eq_ok_iff {kind : CommandKind} {arguments : ArgumentTable}
    {table : CommandTable} :
    (readCommands m kind arguments p).result = .ok table ↔
      ∃ l q, (entries m kind arguments).Passes p l q ∧ m.get? q = some 0 ∧
        table = Chain.ofList? (l.map Entry.command) := by
  have walk : ∀ {l : List Entry} {next : Nat},
      ((entries m kind arguments).walk p).result = .ok (l, next) ↔
        ∃ q, (entries m kind arguments).Passes p l q ∧ m.get? q = some 0 ∧ next = q + 1 :=
    Snapshot.walk_closed_iff (k := 0) fun _ _ => entryAt_eq_stop_iff
  constructor
  · intro h
    obtain ⟨⟨l, next⟩, hw, h⟩ := Reading.bind_eq_ok_iff.1 h
    obtain ⟨q, hpass, hend, -⟩ := walk.1 hw
    cases h
    exact ⟨l, q, hpass, hend, rfl⟩
  · rintro ⟨l, q, hpass, hend, rfl⟩
    exact Reading.bind_eq_ok_iff.2 ⟨_, walk.2 ⟨q, hpass, hend, rfl⟩, rfl⟩

end Rules
end Adventure
