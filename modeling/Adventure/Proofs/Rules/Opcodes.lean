/-
# Where the opcodes of a list of actions stand

How long an action is depends on a table from outside, and so does the place
of every opcode but the first.  `opcodePlace` follows the opcodes through the
snapshot, and `Needs` says which bytes each of them makes necessary: itself
and at most two parameters.  A third parameter and those behind it are
stepped over.  The step may lead out of the snapshot, and it is the next
opcode that is missing then.

The main statement is `readActions_places`.  With any table, a list of
actions is read exactly where its opcodes get to the terminator and nothing
that is needed is missing on the way; it has an action for every opcode
passed, and its fault is at the first needed byte that is missing.  No other
byte matters, and neither does the count that the table gives the terminator.
-/
import Adventure.Proofs.Rules.Format
import Mathlib.Order.Bounds.Basic
import Mathlib.Order.Monotone.Basic

namespace Adventure
namespace Rules

/-! ## Places and needs -/

/-- How many parameters the opcode at `p` takes. -/
def countAt (m : Snapshot) (arguments : ArgumentTable) (p : Nat) : Nat :=
  (m.get? p).elim 0 arguments.count

/-- The place behind the opcode at `p` and its parameters. -/
def nextOpcode (m : Snapshot) (arguments : ArgumentTable) (p : Nat) : Nat :=
  p + 1 + countAt m arguments p

/-- The place of the opcode number `k`, where the first one stands at `start`. -/
def opcodePlace (m : Snapshot) (arguments : ArgumentTable) (start k : Nat) : Nat :=
  (nextOpcode m arguments)^[k] start

/-- The bytes that are read for an action at `p`. -/
inductive Needs (m : Snapshot) (arguments : ArgumentTable) (p : Nat) : Nat → Prop
  | opcode : Needs m arguments p p
  | param1 : m.get? p ≠ some endOfList → 1 ≤ countAt m arguments p → Needs m arguments p (p + 1)
  | param2 : m.get? p ≠ some endOfList → 2 ≤ countAt m arguments p → Needs m arguments p (p + 2)

/-- An action stands at `p`, with every byte that it needs. -/
structure Stands (m : Snapshot) (arguments : ArgumentTable) (p : Nat) : Prop where
  not_over : m.get? p ≠ some endOfList
  inside : ∀ a, Needs m arguments p a → a < m.size

/-- The action at `p` is `a`: its parameters are the bytes behind the opcode,
as far as the opcode takes any. -/
structure IsAt (m : Snapshot) (arguments : ArgumentTable) (p : Nat) (a : Action) : Prop where
  opcode : m.get? p = some a.opcode
  param1 : a.param1 = if 1 ≤ arguments.count a.opcode then m.get? (p + 1) else none
  param2 : a.param2 = if 2 ≤ arguments.count a.opcode then m.get? (p + 2) else none

/-- There are `K` actions from `start` on, and then the terminator. -/
structure EndsAfter (m : Snapshot) (arguments : ArgumentTable) (start K : Nat) : Prop where
  stands : ∀ k < K, Stands m arguments (opcodePlace m arguments start k)
  closed : m.get? (opcodePlace m arguments start K) = some endOfList

/-- The bytes that are read for the actions from `start` on: each action is
looked for when those in front of it stand. -/
def Consulted (m : Snapshot) (arguments : ArgumentTable) (start a : Nat) : Prop :=
  ∃ k, (∀ j < k, Stands m arguments (opcodePlace m arguments start j)) ∧
    Needs m arguments (opcodePlace m arguments start k) a

variable {m : Snapshot} {part : Section} {arguments : ArgumentTable} {p start : Nat} {f : Fault}

theorem countAt_of_get? {b : UInt8} (h : m.get? p = some b) :
    countAt m arguments p = arguments.count b := by
  rw [countAt, h]
  rfl

theorem not_over_of_get? {b : UInt8} (h : m.get? p = some b) (hne : b ≠ endOfList) :
    m.get? p ≠ some endOfList := by
  rw [h]
  intro hb
  exact hne (Option.some.inj hb)

theorem Needs.ge {a : Nat} (h : Needs m arguments p a) : p ≤ a := by
  cases h <;> omega

/-- What an action needs lies in front of the next one. -/
theorem Needs.lt_next {a : Nat} (h : Needs m arguments p a) : a < nextOpcode m arguments p := by
  rw [nextOpcode]
  cases h <;> omega

/-- The terminator needs nothing behind it. -/
theorem Needs.eq_of_over {a : Nat} (hover : m.get? p = some endOfList)
    (h : Needs m arguments p a) : a = p := by
  cases h with
  | opcode => rfl
  | param1 hne _ => exact absurd hover hne
  | param2 hne _ => exact absurd hover hne

theorem opcodePlace_strictMono (m : Snapshot) (arguments : ArgumentTable) (start : Nat) :
    StrictMono (opcodePlace m arguments start) := by
  refine strictMono_nat_of_lt_succ fun k => ?_
  have next : opcodePlace m arguments start (k + 1) =
      nextOpcode m arguments (opcodePlace m arguments start k) :=
    Function.iterate_succ_apply' _ _ _
  rw [next]
  exact Needs.opcode.lt_next

/-! ## One action -/

theorem parameterAt_eq_ok_iff_get? {count k : Nat} {o : Option UInt8} :
    (parameterAt m part p count k).result = .ok o ↔
      (k ≤ count → p + k < m.size) ∧ o = if k ≤ count then m.get? (p + k) else none := by
  rw [parameterAt_eq_ok_iff]
  by_cases hk : k ≤ count
  · simp only [hk, iff_true, if_true, true_implies]
    constructor
    · rintro ⟨hsome, hb⟩
      obtain ⟨b, rfl⟩ := Option.isSome_iff_exists.1 hsome
      exact ⟨Snapshot.lt_size_of_get? (hb b rfl), (hb b rfl).symm⟩
    · rintro ⟨hsize, rfl⟩
      obtain ⟨b, hb⟩ := Snapshot.exists_get? hsize
      exact ⟨Option.isSome_iff_exists.2 ⟨b, hb⟩, fun _ h => h⟩
  · cases o <;> simp [hk]

/-- An action is read exactly where it stands with all that it needs. -/
theorem actionAt_eq_record_iff_stands {a : Action} {k : Nat} :
    (actionAt m part arguments p).result = .ok (.record a k) ↔
      Stands m arguments p ∧ IsAt m arguments p a ∧ p + (k + 1) = nextOpcode m arguments p := by
  constructor
  · intro h
    obtain ⟨opcode, h0, h⟩ := Reading.bind_eq_ok_iff.1 h
    have h0 : m.get? p = some opcode := Snapshot.byteAt_eq_ok_iff.1 h0
    split at h
    · cases h
    rename_i hne
    obtain ⟨param1, h1, h⟩ := Reading.bind_eq_ok_iff.1 h
    obtain ⟨param2, h2, h⟩ := Reading.bind_eq_ok_iff.1 h
    obtain ⟨r1, rfl⟩ := parameterAt_eq_ok_iff_get?.1 h1
    obtain ⟨r2, rfl⟩ := parameterAt_eq_ok_iff_get?.1 h2
    cases h
    have hcount : countAt m arguments p = arguments.count opcode := countAt_of_get? h0
    refine ⟨⟨not_over_of_get? h0 hne, ?_⟩, ⟨h0, rfl, rfl⟩, ?_⟩
    · intro a ha
      cases ha with
      | opcode => exact Snapshot.lt_size_of_get? h0
      | param1 _ h => exact r1 (hcount ▸ h)
      | param2 _ h => exact r2 (hcount ▸ h)
    · rw [nextOpcode, hcount]
      omega
  · rintro ⟨hstands, ⟨h0, h1, h2⟩, hnext⟩
    obtain ⟨opcode, param1, param2⟩ := a
    have hcount : countAt m arguments p = arguments.count opcode := countAt_of_get? h0
    have hne : opcode ≠ endOfList := by
      rintro rfl
      exact hstands.not_over h0
    refine Reading.bind_eq_ok_iff.2 ⟨opcode, Snapshot.byteAt_eq_ok_iff.2 h0, ?_⟩
    rw [if_neg hne]
    refine Reading.bind_eq_ok_iff.2 ⟨param1, parameterAt_eq_ok_iff_get?.2 ⟨?_, h1⟩, ?_⟩
    · intro h
      exact hstands.inside _ (.param1 hstands.not_over (hcount ▸ h))
    refine Reading.bind_eq_ok_iff.2 ⟨param2, parameterAt_eq_ok_iff_get?.2 ⟨?_, h2⟩, ?_⟩
    · intro h
      exact hstands.inside _ (.param2 hstands.not_over (hcount ▸ h))
    obtain rfl : k = arguments.count opcode := by
      rw [nextOpcode, hcount] at hnext
      omega
    rfl

/-- What stands somewhere is an action. -/
theorem exists_isAt_iff :
    (∃ a, Stands m arguments p ∧ IsAt m arguments p a) ↔ Stands m arguments p := by
  constructor
  · rintro ⟨_, h, -⟩
    exact h
  · intro h
    obtain ⟨b, h0⟩ := Snapshot.exists_get? (h.inside p .opcode)
    exact ⟨⟨b, if 1 ≤ arguments.count b then m.get? (p + 1) else none,
      if 2 ≤ arguments.count b then m.get? (p + 2) else none⟩, h, h0, rfl, rfl⟩

/-- When an action or the terminator is read, nothing that it needs is missing. -/
theorem inside_of_actionAt {s : Step Action} {a : Nat}
    (h : (actionAt m part arguments p).result = .ok s) (ha : Needs m arguments p a) :
    a < m.size := by
  cases s with
  | record _ _ => exact (actionAt_eq_record_iff_stands.1 h).1.inside a ha
  | stop w =>
      have hover := (actionAt_eq_stop_iff.1 h).2
      rw [ha.eq_of_over hover]
      exact Snapshot.lt_size_of_get? hover

/-- When none is read, the first needed byte that is missing is the first one
of all that are missing from `p` on. -/
theorem isLeast_of_actionAt (h : (actionAt m part arguments p).result = .error f) :
    IsLeast {a | Needs m arguments p a ∧ m.size ≤ a} (max p m.size) := by
  refine ⟨⟨?_, Nat.le_max_right _ _⟩, fun a ha => Nat.max_le.2 ⟨ha.1.ge, ha.2⟩⟩
  rcases Reading.bind_eq_error_iff.1 h with h | ⟨opcode, h0, h⟩
  · obtain ⟨hsize, -⟩ := Snapshot.byteAt_eq_error_iff.1 h
    rw [show max p m.size = p by omega]
    exact .opcode
  have h0 : m.get? p = some opcode := Snapshot.byteAt_eq_ok_iff.1 h0
  have r0 := Snapshot.lt_size_of_get? h0
  split at h
  · cases h
  rename_i hne
  have hover := not_over_of_get? h0 hne
  have hcount : countAt m arguments p = arguments.count opcode := countAt_of_get? h0
  rcases Reading.bind_eq_error_iff.1 h with h | ⟨param1, h1, h⟩
  · obtain ⟨hk, h⟩ := parameterAt_eq_error_iff.1 h
    obtain ⟨hsize, -⟩ := Snapshot.byteAt_eq_error_iff.1 h
    rw [show max p m.size = p + 1 by omega]
    exact .param1 hover (hcount ▸ hk)
  · obtain ⟨hk, h⟩ := parameterAt_eq_error_iff.1 (Reading.error_of_bind (fun _ => ⟨_, rfl⟩) h)
    obtain ⟨hsize, -⟩ := Snapshot.byteAt_eq_error_iff.1 h
    have r1 := parameterAt_inside h1 (Nat.le_of_succ_le hk)
    rw [show max p m.size = p + 2 by omega]
    exact .param2 hover (hcount ▸ hk)

/-- An action cannot be read exactly when something that it needs is missing;
the first such byte is to blame. -/
theorem actionAt_eq_error_iff :
    (actionAt m part arguments p).result = .error f ↔
      ∃ a, IsLeast {a | Needs m arguments p a ∧ m.size ≤ a} a ∧ f = .malformed part a := by
  constructor
  · intro h
    exact ⟨_, isLeast_of_actionAt h, actionAt_fault h⟩
  · rintro ⟨a, ha, rfl⟩
    cases h : (actionAt m part arguments p).result with
    | error g => rw [actionAt_fault h, (isLeast_of_actionAt h).unique ha]
    | ok s => exact absurd (inside_of_actionAt h ha.1.1) (Nat.not_lt_of_le ha.1.2)

/-- An action is read the same from every snapshot that has the bytes it
needs, with every table that has the counts of the opcodes. -/
theorem actionAt_congr {m' : Snapshot} {arguments' : ArgumentTable}
    (hbytes : ∀ a, Needs m arguments p a → m'.get? a = m.get? a)
    (hcounts : ∀ b, b ≠ endOfList → arguments'.count b = arguments.count b) :
    actionAt m' part arguments' p = actionAt m part arguments p := by
  have byte : ∀ {k}, Needs m arguments p (p + k) → m'.byteAt part p k = m.byteAt part p k := by
    intro k h
    rw [Snapshot.byteAt, Snapshot.byteAt, hbytes _ h]
  rw [actionAt, actionAt, byte .opcode]
  refine Reading.bind_congr fun opcode h0 => ?_
  have h0 : m.get? p = some opcode := Snapshot.byteAt_eq_ok_iff.1 h0
  by_cases hend : opcode = endOfList
  · rw [if_pos hend, if_pos hend]
  have hover := not_over_of_get? h0 hend
  have hcount : countAt m arguments p = arguments.count opcode := countAt_of_get? h0
  have parameter : ∀ k, (k ≤ arguments.count opcode → Needs m arguments p (p + k)) →
      parameterAt m' part p (arguments.count opcode) k =
        parameterAt m part p (arguments.count opcode) k := by
    intro k h
    by_cases hk : k ≤ arguments.count opcode
    · rw [parameterAt, parameterAt, if_pos hk, if_pos hk, byte (h hk)]
    · rw [parameterAt, parameterAt, if_neg hk, if_neg hk]
  rw [if_neg hend, if_neg hend, hcounts opcode hend]
  dsimp only
  rw [parameter 1 fun h => .param1 hover (hcount ▸ h),
    parameter 2 fun h => .param2 hover (hcount ▸ h)]

/-! ## The whole list -/

/-- Actions stand at the places of their opcodes. -/
theorem actions_places (m : Snapshot) (part : Section) (arguments : ArgumentTable) :
    (actions m part arguments).Places (nextOpcode m arguments)
      fun p a => Stands m arguments p ∧ IsAt m arguments p a where
  record := by
    intro p a
    constructor
    · rintro ⟨k, h⟩
      obtain ⟨hstands, hat, -⟩ := actionAt_eq_record_iff_stands.1 h
      exact ⟨hstands, hat⟩
    · rintro ⟨hstands, hat⟩
      refine ⟨countAt m arguments p, actionAt_eq_record_iff_stands.2 ⟨hstands, hat, ?_⟩⟩
      rw [nextOpcode]
      omega
  behind := fun _ _ _ h => (actionAt_eq_record_iff_stands.1 h).2.2

/-- The actions that a walk passes stand where their opcodes are. -/
theorem stands_of_passes {l : List Action} {q : Nat}
    (h : (actions m part arguments).Passes start l q) :
    ∀ j < l.length, Stands m arguments (opcodePlace m arguments start j) := by
  intro j hj
  exact exists_isAt_iff.1 ((actions_places m part arguments).exists_at_of_passes h j hj)

theorem readActions_eq_ok_iff_places {chain : Option (Chain Action)} :
    (readActions m part arguments start).result = .ok chain ↔
      ∃ K, EndsAfter m arguments start K ∧ (Chain.listOf chain).length = K ∧
        ∀ k a, (Chain.listOf chain)[k]? = some a →
          IsAt m arguments (opcodePlace m arguments start k) a := by
  rw [readActions_eq_ok_iff]
  constructor
  · rintro ⟨l, q, hpass, hend, rfl⟩
    obtain ⟨hl, rfl⟩ := (actions_places m part arguments).passes_iff.1 hpass
    rw [Chain.listOf_ofList?]
    exact ⟨l.length, ⟨stands_of_passes hpass, hend⟩, rfl, fun k a h => (hl k a h).2⟩
  · rintro ⟨K, hends, rfl, hl⟩
    have stands : ∀ k a, (Chain.listOf chain)[k]? = some a →
        Stands m arguments (opcodePlace m arguments start k) ∧
          IsAt m arguments (opcodePlace m arguments start k) a := by
      intro k a h
      exact ⟨hends.stands k (List.getElem?_eq_some_iff.1 h).1, hl k a h⟩
    have hpass := (actions_places m part arguments).passes_iff.2 ⟨stands, rfl⟩
    exact ⟨_, _, hpass, hends.closed, (Chain.ofList?_listOf chain).symm⟩

theorem readActions_eq_error_iff :
    (readActions m part arguments start).result = .error f ↔
      ∃ k, (∀ j < k, Stands m arguments (opcodePlace m arguments start j)) ∧
        ∃ a, IsLeast {a | Needs m arguments (opcodePlace m arguments start k) a ∧ m.size ≤ a} a ∧
          f = .malformed part a := by
  have walk := (actions_places m part arguments).walk_eq_error_iff (p := start) (f := f)
  simp only [exists_isAt_iff] at walk
  constructor
  · intro h
    obtain ⟨k, hstands, hs⟩ := walk.1 (Reading.error_of_bind (fun _ => ⟨_, rfl⟩) h)
    exact ⟨k, hstands, actionAt_eq_error_iff.1 hs⟩
  · rintro ⟨k, hstands, hs⟩
    exact Reading.bind_eq_error_iff.2 (.inl (walk.2 ⟨k, hstands, actionAt_eq_error_iff.2 hs⟩))

/-- The actions are read the same from every snapshot that has the bytes
consulted, with every table that has the counts of the opcodes. -/
theorem readActions_congr {m' : Snapshot} {arguments' : ArgumentTable}
    (hbytes : ∀ a, Consulted m arguments start a → m'.get? a = m.get? a)
    (hcounts : ∀ b, b ≠ endOfList → arguments'.count b = arguments.count b) :
    readActions m' part arguments' start = readActions m part arguments start := by
  have note : (actions m' part arguments').note = (actions m part arguments).note := rfl
  have walk : (actions m' part arguments').walk start = (actions m part arguments).walk start := by
    refine Records.walk_congr note ?_
    intro l q hpass
    refine actionAt_congr (fun a ha => hbytes a ⟨l.length, stands_of_passes hpass, ?_⟩) hcounts
    rwa [((actions_places m part arguments).passes_iff.1 hpass).2] at ha
  rw [readActions, readActions, walk]

/-- What is stepped over is not consulted. -/
theorem not_consulted_of_between {k a : Nat} (hlow : opcodePlace m arguments start k + 2 < a)
    (hhigh : a < opcodePlace m arguments start (k + 1)) : ¬ Consulted m arguments start a := by
  rintro ⟨j, -, hneeds⟩
  have mono := opcodePlace_strictMono m arguments start
  -- What action `j` needs lies between its place and the next one.
  rcases Nat.lt_trichotomy j k with hj | rfl | hj
  · have hlt := hneeds.lt_next
    have hle := mono.monotone (Nat.succ_le_of_lt hj)
    rw [Nat.succ_eq_add_one, opcodePlace, Function.iterate_succ_apply'] at hle
    change nextOpcode m arguments (opcodePlace m arguments start j) ≤ _ at hle
    omega
  · cases hneeds <;> omega
  · have hge := hneeds.ge
    have hle := mono.monotone (Nat.succ_le_of_lt hj)
    rw [Nat.succ_eq_add_one] at hle
    omega

/-! ## Reading by the places -/

/-- What reading a list of actions comes to, told by the places of its opcodes. -/
structure ActionsByPlace (m : Snapshot) (part : Section) (arguments : ArgumentTable)
    (start : Nat) : Prop where
  /-- A list is read where its opcodes get to the terminator. -/
  succeeds : (∃ chain, (readActions m part arguments start).result = .ok chain) ↔
    ∃ K, EndsAfter m arguments start K
  /-- The chain has an action for every opcode in front of it, and is none when there is none. -/
  chain : ∀ chain, (readActions m part arguments start).result = .ok chain ↔
    ∃ K, EndsAfter m arguments start K ∧ (Chain.listOf chain).length = K ∧
      (chain = none ↔ K = 0) ∧ ∀ k a, (Chain.listOf chain)[k]? = some a →
        IsAt m arguments (opcodePlace m arguments start k) a
  /-- A fault is at the first needed byte that is missing. -/
  fault : ∀ f, (readActions m part arguments start).result = .error f ↔
    ∃ k, (∀ j < k, Stands m arguments (opcodePlace m arguments start j)) ∧
      ∃ a, IsLeast {a | Needs m arguments (opcodePlace m arguments start k) a ∧ m.size ≤ a} a ∧
        f = .malformed part a
  /-- Nothing but the bytes consulted and the counts of the opcodes matters. -/
  depends : ∀ m' arguments', (∀ a, Consulted m arguments start a → m'.get? a = m.get? a) →
    (∀ b, b ≠ endOfList → arguments'.count b = arguments.count b) →
      readActions m' part arguments' start = readActions m part arguments start
  /-- What lies behind a second parameter is not consulted. -/
  skipped : ∀ k a, opcodePlace m arguments start k + 2 < a →
    a < opcodePlace m arguments start (k + 1) → ¬ Consulted m arguments start a

/-- Actions are read by the places of their opcodes, with every table. -/
theorem readActions_places (m : Snapshot) (part : Section) (arguments : ArgumentTable)
    (start : Nat) : ActionsByPlace m part arguments start := by
  refine ⟨?succeeds, ?chain, ?fault, ?depends, ?skipped⟩
  case succeeds =>
    constructor
    · rintro ⟨chain, h⟩
      obtain ⟨K, hends, -⟩ := readActions_eq_ok_iff_places.1 h
      exact ⟨K, hends⟩
    · rintro ⟨K, hends⟩
      obtain ⟨l, rfl, hpass⟩ := (actions_places m part arguments).exists_passes
        fun j hj => exists_isAt_iff.2 (hends.stands j hj)
      exact ⟨_, readActions_eq_ok_iff.2 ⟨l, _, hpass, hends.closed, rfl⟩⟩
  case chain =>
    intro chain
    rw [readActions_eq_ok_iff_places]
    constructor
    · rintro ⟨K, hends, rfl, hl⟩
      exact ⟨_, hends, rfl, Chain.length_listOf_eq_zero_iff.symm, hl⟩
    · rintro ⟨K, hends, hlen, -, hl⟩
      exact ⟨K, hends, hlen, hl⟩
  case fault => exact fun f => readActions_eq_error_iff
  case depends => exact fun m' arguments' hbytes hcounts => readActions_congr hbytes hcounts
  case skipped => exact fun k a hlow hhigh => not_consulted_of_between hlow hhigh

end Rules
end Adventure
