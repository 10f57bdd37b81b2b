/-
# What a snapshot holds

`Snapshot.Holds m p bytes` says that the bytes stand in the snapshot from
`p` on, all of them inside it; nothing stands from any place on when there
are none.  The reads of a snapshot are characterised by it: which byte, word
or run they return, and at which offset they fail.
-/
import Adventure.Proofs.Passage
import Adventure.Snapshot

namespace Adventure
namespace Snapshot

variable {m : Snapshot}

/-! ## Runs of bytes -/

/-- The bytes stand in the snapshot from `p` on. -/
def Holds (m : Snapshot) (p : Nat) (bytes : List UInt8) : Prop :=
  ∀ i, i < bytes.length → m.get? (p + i) = bytes[i]?

instance (m : Snapshot) (p : Nat) (bytes : List UInt8) : Decidable (m.Holds p bytes) :=
  inferInstanceAs (Decidable (∀ i, i < bytes.length → m.get? (p + i) = bytes[i]?))

theorem get?_eq_none_iff {a : Nat} : m.get? a = none ↔ m.size ≤ a := by
  simp [get?, size]

theorem lt_size_of_get? {a : Nat} {b : UInt8} (h : m.get? a = some b) : a < m.size := by
  refine Nat.lt_of_not_le fun hn => ?_
  rw [get?_eq_none_iff.2 hn] at h
  cases h

theorem exists_get? {a : Nat} (h : a < m.size) : ∃ b, m.get? a = some b := by
  cases hb : m.get? a with
  | none => exact absurd (get?_eq_none_iff.1 hb) (Nat.not_le_of_lt h)
  | some b => exact ⟨b, rfl⟩

@[simp] theorem holds_nil {p : Nat} : m.Holds p [] :=
  fun _ h => absurd h (Nat.not_lt_zero _)

@[simp] theorem holds_cons {p : Nat} {b : UInt8} {rest : List UInt8} :
    m.Holds p (b :: rest) ↔ m.get? p = some b ∧ m.Holds (p + 1) rest := by
  constructor
  · intro h
    refine ⟨by simpa using h 0 (Nat.succ_pos _), fun i hi => ?_⟩
    have := h (i + 1) (Nat.succ_lt_succ hi)
    rwa [Nat.add_comm i, ← Nat.add_assoc, Nat.add_comm 1, List.getElem?_cons_succ] at this
  · rintro ⟨h0, h⟩ i hi
    cases i with
    | zero => simpa using h0
    | succ i =>
        have := h i (Nat.lt_of_succ_lt_succ hi)
        rwa [Nat.add_comm i, ← Nat.add_assoc, Nat.add_comm 1, List.getElem?_cons_succ]

/-- A run in two pieces. -/
@[simp] theorem holds_append {p : Nat} {xs ys : List UInt8} :
    m.Holds p (xs ++ ys) ↔ m.Holds p xs ∧ m.Holds (p + xs.length) ys := by
  induction xs generalizing p with
  | nil => simp
  | cons b xs ih =>
      rw [List.cons_append, holds_cons, holds_cons, ih, and_assoc, List.length_cons,
        Nat.add_assoc, Nat.add_comm 1]

/-- A run that is not empty ends inside the snapshot. -/
theorem Holds.le_size {p : Nat} {bytes : List UInt8} (h : m.Holds p bytes) (hne : bytes ≠ []) :
    p + bytes.length ≤ m.size := by
  have hpos : 0 < bytes.length := List.length_pos_iff.2 hne
  have hlast := h (bytes.length - 1) (by omega)
  rw [List.getElem?_eq_getElem (by omega)] at hlast
  have := lt_size_of_get? hlast
  omega

/-- Two runs of one length from one place are the same. -/
theorem Holds.unique {p : Nat} {xs ys : List UInt8} (hx : m.Holds p xs) (hy : m.Holds p ys)
    (hlen : xs.length = ys.length) : xs = ys := by
  refine List.ext_getElem? fun i => ?_
  by_cases hi : i < xs.length
  · rw [← hx i hi, ← hy i (hlen ▸ hi)]
  · rw [List.getElem?_eq_none (by omega), List.getElem?_eq_none (by omega)]

/-! ## The bounded reads -/

section Reads

variable {part : Section} {a k : Nat}

theorem byteAt_eq_ok_iff {b : UInt8} :
    (m.byteAt part a k).result = .ok b ↔ m.get? (a + k) = some b := by
  rw [result_byteAt]
  cases m.get? (a + k) <;> simp

theorem byteAt_eq_error_iff {f : Fault} :
    (m.byteAt part a k).result = .error f ↔ m.size ≤ a + k ∧ f = .malformed part (a + k) := by
  rw [result_byteAt, ← get?_eq_none_iff]
  cases m.get? (a + k) <;> simp [eq_comm]

/-- Behind bytes that are there, a byte that is not is the first one missing. -/
theorem byteAt_fault {f : Fault} (hread : ∀ i < k, a + i < m.size)
    (h : (m.byteAt part a k).result = .error f) : f = .malformed part (max a m.size) := by
  obtain ⟨hsize, rfl⟩ := byteAt_eq_error_iff.1 h
  cases k with
  | zero => rw [show a + 0 = max a m.size by omega]
  | succ k =>
      have := hread k (Nat.lt_succ_self k)
      rw [show a + (k + 1) = max a m.size by omega]

/-- A word is its low byte and 256 times its high byte. -/
theorem wordAt_eq_ok_iff {w : Nat} :
    (m.wordAt part a k).result = .ok w ↔
      ∃ low high : UInt8, m.get? (a + k) = some low ∧ m.get? (a + k + 1) = some high ∧
        w = low.toNat + 256 * high.toNat := by
  simp only [wordAt, Reading.bind_eq_ok_iff, byteAt_eq_ok_iff, Reading.result_pure,
    Except.ok.injEq]
  constructor
  · rintro ⟨low, hl, high, hh, rfl⟩
    exact ⟨low, high, hl, hh, rfl⟩
  · rintro ⟨low, high, hl, hh, rfl⟩
    exact ⟨low, hl, high, hh, rfl⟩

/-- Two bytes make an address below 65536. -/
theorem lt_of_wordAt_eq_ok {w : Nat} (h : (m.wordAt part a k).result = .ok w) : w < 65536 := by
  obtain ⟨low, high, _, _, rfl⟩ := wordAt_eq_ok_iff.1 h
  have := low.toNat_lt
  have := high.toNat_lt
  omega

/-- A word fails at its first missing byte. -/
theorem wordAt_eq_error_iff {f : Fault} :
    (m.wordAt part a k).result = .error f ↔
      m.size < a + k + 2 ∧ f = .malformed part (max (a + k) m.size) := by
  simp only [wordAt, Reading.bind_eq_error_iff, byteAt_eq_error_iff, byteAt_eq_ok_iff,
    Reading.result_pure, reduceCtorEq, and_false, exists_false, or_false]
  constructor
  · rintro (⟨hlow, rfl⟩ | ⟨low, hlow, hhigh, rfl⟩)
    · rw [Nat.max_eq_left hlow]
      exact ⟨by omega, rfl⟩
    · have := lt_size_of_get? hlow
      rw [Nat.max_eq_right (by omega), show m.size = a + k + 1 by omega]
      exact ⟨by omega, rfl⟩
  · rintro ⟨hsize, rfl⟩
    by_cases hlow : m.size ≤ a + k
    · exact .inl ⟨hlow, by rw [Nat.max_eq_left hlow]⟩
    · obtain ⟨low, hb⟩ := exists_get? (m := m) (a := a + k) (by omega)
      refine .inr ⟨low, hb, by omega, ?_⟩
      rw [show max (a + k) m.size = a + k + 1 by omega]

/-- An address as stored, its low byte first. -/
def wordBytes (w : UInt16) : List UInt8 :=
  [w.toUInt8, (w >>> 8).toUInt8]

/-- The bytes from one place of the snapshot to another are held from there on. -/
theorem holds_extract {len : Nat} (h : a + len ≤ m.size) :
    (m.bytes.extract a (a + len)).toList.length = len ∧
      m.Holds a (m.bytes.extract a (a + len)).toList := by
  have hlen : (m.bytes.extract a (a + len)).toList.length = len := by
    have : a + len ≤ m.bytes.size := h
    simp
    omega
  refine ⟨hlen, fun i hi => ?_⟩
  rw [hlen] at hi
  simp [get?, hi]

/-- A run that is read is the one that the snapshot holds there. -/
theorem slice_eq_ok_iff {len : Nat} {bytes : List UInt8} :
    (m.slice part a len).result = .ok bytes ↔
      a + len < addressLimit ∧ a + len ≤ m.size ∧ bytes.length = len ∧ m.Holds a bytes := by
  unfold slice
  by_cases hlimit : a + len < addressLimit
  · by_cases hsize : a + len ≤ m.size
    · simp only [hlimit, hsize, if_true, Except.ok.injEq, true_and]
      obtain ⟨hlen, hheld⟩ := holds_extract hsize
      constructor
      · rintro rfl
        exact ⟨hlen, hheld⟩
      · rintro ⟨hl, hh⟩
        exact hheld.unique hh (hlen.trans hl.symm)
    · simp [hlimit, hsize]
  · simp [hlimit]

/-- A run whose end is an address fails at its first missing byte. -/
theorem slice_eq_error_iff {len : Nat} {f : Fault} (hlimit : a + len < addressLimit) :
    (m.slice part a len).result = .error f ↔
      m.size < a + len ∧ f = .malformed part (max a m.size) := by
  unfold slice
  by_cases hsize : a + len ≤ m.size
  · simp only [hlimit, hsize, if_true, reduceCtorEq, false_iff, not_and]
    intro h
    exact absurd h (Nat.not_lt_of_le hsize)
  · simp only [hlimit, hsize, if_true, if_false, Except.error.injEq]
    rw [show min (a + len) (max m.size a) = max a m.size by omega]
    constructor
    · rintro rfl
      exact ⟨by omega, rfl⟩
    · rintro ⟨_, rfl⟩
      rfl

end Reads

/-! ## Terminators -/

/-- A list that a byte closes is over exactly where that byte stands, when no
other byte closes it. -/
theorem closed_eq_stop_iff {α : Type} {part : Section} {a k n w : Nat} {e : UInt8}
    {next : UInt8 → Reading (Step α)} (hnext : ∀ b, (next b).result ≠ .ok (.stop w)) :
    (m.byteAt part a k >>= fun b => if b = e then pure (.stop n) else next b).result =
        .ok (.stop w) ↔
      w = n ∧ m.get? (a + k) = some e := by
  rw [Reading.bind_eq_ok_iff]
  constructor
  · rintro ⟨b, hb, h⟩
    rw [byteAt_eq_ok_iff] at hb
    by_cases he : b = e
    · rw [if_pos he] at h
      cases h
      exact ⟨rfl, he ▸ hb⟩
    · rw [if_neg he] at h
      exact absurd h (hnext b)
  · rintro ⟨rfl, hb⟩
    refine ⟨e, byteAt_eq_ok_iff.2 hb, ?_⟩
    rw [if_pos rfl]
    rfl

/-- A walk that a byte closes succeeds exactly when it gets to that byte. -/
theorem walk_closed_iff {α : Type} {r : Records α} {k n : Nat} {e : UInt8}
    (stop : ∀ q w, (r.step q).result = .ok (.stop w) ↔ w = n ∧ m.get? (q + k) = some e)
    {p next : Nat} {l : List α} :
    (r.walk p).result = .ok (l, next) ↔
      ∃ q, r.Passes p l q ∧ m.get? (q + k) = some e ∧ next = q + n := by
  rw [Records.walk_eq_ok_iff]
  constructor
  · rintro ⟨q, w, hpass, hs, rfl⟩
    obtain ⟨rfl, he⟩ := (stop q w).1 hs
    exact ⟨q, hpass, he, rfl⟩
  · rintro ⟨q, hpass, he, rfl⟩
    exact ⟨q, n, hpass, (stop q n).2 ⟨rfl, he⟩, rfl⟩

/-! ## Faults of walks and packed tables -/

/-- When records end inside the snapshot, and one that cannot be read fails at
its first missing byte, then a walk fails at its first missing byte. -/
theorem walk_fault {α : Type} {r : Records α} {part : Section}
    (record : ∀ p a k, (r.step p).result = .ok (.record a k) → p + (k + 1) ≤ m.size)
    (fault : ∀ p f, (r.step p).result = .error f → f = .malformed part (max p m.size))
    {p : Nat} {f : Fault} (h : (r.walk p).result = .error f) :
    f = .malformed part (max p m.size) := by
  obtain ⟨l, q, hpass, hs⟩ := Records.walk_eq_error_iff.1 h
  -- Behind a record the walk is still inside the snapshot.
  have hq : max q m.size = max p m.size := by
    refine hpass.cursor (P := fun q => max q m.size = max p m.size) ?_ rfl
    intro q a k hq hs
    have : q + (k + 1) ≤ m.size := record q a k hs
    omega
  rw [fault q f hs, hq]

/-- When items end inside the snapshot, and one that cannot be read fails at
its first missing byte, then a packed table fails at its first missing byte. -/
theorem packed_fault {α : Type} {item : (index p : Nat) → Reading (α × Nat)} {part : Section}
    (next : ∀ index p a q, (item index p).result = .ok (a, q) → p < q ∧ q ≤ m.size)
    (fault : ∀ index p f, (item index p).result = .error f → f = .malformed part (max p m.size))
    {count p : Nat} {f : Fault} (h : (packed item count p).result = .error f) :
    f = .malformed part (max p m.size) := by
  obtain ⟨l, q, -, hpacks, hs⟩ := packed_eq_error_iff.1 h
  -- Behind an item the cursor is still inside the snapshot.
  have hq : ∀ {index p q : Nat} {l : List α}, Packs item index p l q →
      max q m.size = max p m.size := by
    intro index p q l hpacks
    induction hpacks with
    | nil => rfl
    | cons ha _ ih =>
        have := next _ _ _ _ ha
        omega
  rw [fault _ q f hs, hq hpacks]

/-! ## Tables as written

A table is written by writing one record behind the other.  If each record
is read back where it is written, so is the table: `value` is what is read
of a record, and `code` what is written of it. -/

section Written

variable {α β : Type} {valid : β → Prop} (code : β → List UInt8) (value : β → α)

theorem passes_of_holds {r : Records α}
    (step : ∀ p b, valid b → m.Holds p (code b) →
      ∃ k, k + 1 = (code b).length ∧ (r.step p).result = .ok (.record (value b) k)) :
    ∀ (l : List β) (p : Nat), (∀ b ∈ l, valid b) → m.Holds p (l.flatMap code) →
      r.Passes p (l.map value) (p + (l.flatMap code).length)
  | [], _, _, _ => .nil
  | b :: l, p, hv, h => by
      rw [List.flatMap_cons, holds_append] at h
      obtain ⟨hb, hl⟩ := List.forall_mem_cons.1 hv
      obtain ⟨k, hk, hs⟩ := step p b hb h.1
      have rest := passes_of_holds step l (p + (code b).length) hl h.2
      rw [List.flatMap_cons, List.length_append, ← Nat.add_assoc]
      exact .cons hs (hk ▸ rest)

/-- Records that are read exactly where they are written are passed exactly
where all of them are written. -/
theorem passes_iff_holds {valid : α → Prop} {code : α → List UInt8} {r : Records α}
    (hne : ∀ a, code a ≠ [])
    (step : ∀ p a k, (r.step p).result = .ok (.record a k) ↔
      valid a ∧ k + 1 = (code a).length ∧ m.Holds p (code a))
    {p q : Nat} {l : List α} :
    r.Passes p l q ↔
      (∀ a ∈ l, valid a) ∧ m.Holds p (l.flatMap code) ∧ q = p + (l.flatMap code).length := by
  constructor
  · intro h
    induction h with
    | nil => exact ⟨fun _ h => absurd h List.not_mem_nil, holds_nil, rfl⟩
    | cons hs _ ih =>
        obtain ⟨ha, hk, hheld⟩ := (step _ _ _).1 hs
        obtain ⟨hl, hrest, rfl⟩ := ih
        rw [hk] at hrest ⊢
        rw [List.flatMap_cons, holds_append, List.length_append, ← Nat.add_assoc]
        exact ⟨List.forall_mem_cons.2 ⟨ha, hl⟩, ⟨hheld, hrest⟩, rfl⟩
  · rintro ⟨hl, hheld, rfl⟩
    have step' : ∀ p a, valid a → m.Holds p (code a) →
        ∃ k, k + 1 = (code a).length ∧ (r.step p).result = .ok (.record a k) := by
      intro p a ha hb
      have hk : (code a).length - 1 + 1 = (code a).length :=
        Nat.sub_add_cancel (List.length_pos_iff.2 (hne a))
      exact ⟨_, hk, (step p a _).2 ⟨ha, hk, hb⟩⟩
    have passes := passes_of_holds code id step' l p hl hheld
    rwa [List.map_id] at passes

theorem packs_of_holds {item : (index p : Nat) → Reading (α × Nat)}
    (step : ∀ index p b, valid b → m.Holds p (code b) →
      (item index p).result = .ok (value b, p + (code b).length)) :
    ∀ (l : List β) (index p : Nat), (∀ b ∈ l, valid b) → m.Holds p (l.flatMap code) →
      Packs item index p (l.map value) (p + (l.flatMap code).length)
  | [], _, _, _, _ => .nil
  | b :: l, index, p, hv, h => by
      rw [List.flatMap_cons, holds_append] at h
      obtain ⟨hb, hl⟩ := List.forall_mem_cons.1 hv
      have rest := packs_of_holds step l (index + 1) (p + (code b).length) hl h.2
      rw [List.flatMap_cons, List.length_append, ← Nat.add_assoc]
      exact .cons (step index p b hb h.1) rest

/-- Items that are read exactly where they are written are packed exactly
where all of them are written. -/
theorem packs_iff_holds {item : (index p : Nat) → Reading (α × Nat)}
    (step : ∀ index p a next, (item index p).result = .ok (a, next) ↔
      ∃ b, valid b ∧ m.Holds p (code b) ∧ next = p + (code b).length ∧ a = value b)
    {index p q : Nat} {l : List α} :
    Packs item index p l q ↔
      ∃ bs : List β, (∀ b ∈ bs, valid b) ∧ m.Holds p (bs.flatMap code) ∧
        q = p + (bs.flatMap code).length ∧ l = bs.map value := by
  constructor
  · intro h
    induction h with
    | nil => exact ⟨[], fun _ h => absurd h List.not_mem_nil, holds_nil, rfl, rfl⟩
    | cons ha _ ih =>
        obtain ⟨b, hb, hheld, rfl, rfl⟩ := (step _ _ _ _).1 ha
        obtain ⟨bs, hbs, hrest, rfl, rfl⟩ := ih
        refine ⟨b :: bs, List.forall_mem_cons.2 ⟨hb, hbs⟩, ?_, ?_, rfl⟩
        · exact holds_append.2 ⟨hheld, hrest⟩
        · rw [List.flatMap_cons, List.length_append, Nat.add_assoc]
  · rintro ⟨bs, hbs, hheld, rfl, rfl⟩
    exact packs_of_holds code value
      (fun index p b hb h => (step index p _ _).2 ⟨b, hb, h, rfl, rfl⟩) bs index p hbs hheld

end Written

end Snapshot
end Adventure
