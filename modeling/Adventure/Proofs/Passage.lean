/-
# The passage of a walk

What a walk comes to is settled by the cursors that it passes.
`Records.Passes p l q` says that it gets from `p` to `q` over the records
`l`, and a walk is over where no further record stands: it succeeds exactly
when it gets to a terminator (`walk_eq_ok_iff`) and fails exactly when it
gets to a cursor whose reading fails (`walk_eq_error_iff`).  `Packs` and the
two statements behind it say the same of a packed table.  `Records.Places` is for
records that stand at places which can be told without reading them all.

With these, a property of a whole table is a property of one step and one
induction over a passage; no later proof opens the loops.
-/
import Adventure.Reading.Walk
import Mathlib.Logic.Function.Iterate

namespace Adventure

/-! ## Composed readings -/

namespace Reading

variable {α β : Type}

/-- A composed reading succeeds when both parts do. -/
theorem bind_eq_ok_iff {r : Reading α} {next : α → Reading β} {b : β} :
    (r >>= next).result = .ok b ↔ ∃ a, r.result = .ok a ∧ (next a).result = .ok b := by
  rw [result_bind]
  cases r.result with
  | error f =>
      constructor
      · intro h
        cases h
      · rintro ⟨_, h, _⟩
        cases h
  | ok a =>
      constructor
      · intro h
        exact ⟨a, rfl, h⟩
      · rintro ⟨a', ha, h⟩
        exact Except.ok.inj ha ▸ h

/-- A composed reading fails as its first part does, or as its second part
does behind a first one that succeeded. -/
theorem bind_eq_error_iff {r : Reading α} {next : α → Reading β} {f : Fault} :
    (r >>= next).result = .error f ↔
      r.result = .error f ∨ ∃ a, r.result = .ok a ∧ (next a).result = .error f := by
  rw [result_bind]
  cases r.result with
  | error g =>
      constructor
      · intro h
        cases h
        exact .inl rfl
      · rintro (h | ⟨_, h, _⟩)
        · cases h
          rfl
        · cases h
  | ok a =>
      constructor
      · intro h
        exact .inr ⟨a, rfl, h⟩
      · rintro (h | ⟨a', ha, h⟩)
        · cases h
        · exact Except.ok.inj ha ▸ h

/-- Where the second part cannot fail, a fault is one of the first part. -/
theorem error_of_bind {r : Reading α} {next : α → Reading β} {f : Fault}
    (hnext : ∀ a, ∃ b, (next a).result = .ok b) (h : (r >>= next).result = .error f) :
    r.result = .error f := by
  rcases bind_eq_error_iff.1 h with h | ⟨a, -, h⟩
  · exact h
  · obtain ⟨b, hb⟩ := hnext a
    rw [hb] at h
    cases h

/-- What the second part never returns, the whole never returns. -/
theorem bind_ne_ok {r : Reading α} {next : α → Reading β} {b : β}
    (hnext : ∀ a, (next a).result ≠ .ok b) : (r >>= next).result ≠ .ok b := by
  intro h
  obtain ⟨a, -, ha⟩ := bind_eq_ok_iff.1 h
  exact hnext a ha

/-- Only what the first part returns matters of the second part. -/
theorem bind_congr {r : Reading α} {next next' : α → Reading β}
    (h : ∀ a, r.result = .ok a → next a = next' a) : r >>= next = r >>= next' := by
  obtain ⟨result, events, reach⟩ := r
  cases result with
  | error f => rfl
  | ok a => rw [bind_ok, bind_ok, h a rfl]

@[simp] theorem result_pure (a : α) : (pure a : Reading α).result = .ok a := rfl

end Reading

/-! ## Walks -/

namespace Records

variable {α : Type} {r : Records α}

/-- The walk gets from the cursor `p` to the cursor `q` over the records `l`. -/
inductive Passes (r : Records α) : (p : Nat) → (l : List α) → (q : Nat) → Prop where
  | nil {p : Nat} : Passes r p [] p
  | cons {p : Nat} {a : α} {k : Nat} {l : List α} {q : Nat} :
      (r.step p).result = .ok (.record a k) → Passes r (p + (k + 1)) l q → Passes r p (a :: l) q

/-- What every record keeps of its cursor, a passage keeps. -/
theorem Passes.cursor {P : Nat → Prop}
    (step : ∀ p a k, P p → (r.step p).result = .ok (.record a k) → P (p + (k + 1)))
    {p q : Nat} {l : List α} (h : r.Passes p l q) (start : P p) : P q := by
  induction h with
  | nil => exact start
  | cons hs _ ih => exact ih (step _ _ _ start hs)

/-- What holds of every record that can be read holds of those passed. -/
theorem Passes.forall {Q : α → Prop}
    (step : ∀ p a k, (r.step p).result = .ok (.record a k) → Q a)
    {p q : Nat} {l : List α} (h : r.Passes p l q) : ∀ a ∈ l, Q a := by
  induction h with
  | nil => exact fun _ h => nomatch h
  | cons hs _ ih => exact List.forall_mem_cons.2 ⟨step _ _ _ hs, ih⟩

/-- A record does not change what the walk comes to; it only goes on behind it. -/
theorem result_walkAfter_record {p : Nat} {a : α} {k : Nat}
    (h : (r.step p).result = .ok (.record a k)) (read : List α) :
    (r.walkAfter read p).result = (r.walkAfter (a :: read) (p + (k + 1))).result := by
  have hs : r.step p = ⟨.ok (.record a k), (r.step p).events, (r.step p).reach⟩ := by rw [← h]
  rw [r.walkAfter_record hs]
  rfl

theorem result_walkAfter_stop {p w : Nat} (h : (r.step p).result = .ok (.stop w))
    (read : List α) : (r.walkAfter read p).result = .ok (read.reverse, p + w) := by
  have hs : r.step p = ⟨.ok (.stop w), (r.step p).events, (r.step p).reach⟩ := by rw [← h]
  rw [r.walkAfter_stop hs]

theorem result_walkAfter_error {p : Nat} {f : Fault} (h : (r.step p).result = .error f)
    (read : List α) : (r.walkAfter read p).result = .error f := by
  have hs : r.step p = ⟨.error f, (r.step p).events, (r.step p).reach⟩ := by rw [← h]
  rw [r.walkAfter_error hs]

/-- Nor does a whole passage. -/
theorem Passes.result_walkAfter {p q : Nat} {l : List α} (h : r.Passes p l q) (read : List α) :
    (r.walkAfter read p).result = (r.walkAfter (l.reverse ++ read) q).result := by
  induction h generalizing read with
  | nil => rfl
  | cons hs _ ih =>
      rw [result_walkAfter_record hs, ih]
      simp

/-- Every walk gets to a cursor where no record stands. -/
theorem exists_passes (r : Records α) (p : Nat) :
    ∃ l q, r.Passes p l q ∧ ∀ a k, (r.step q).result ≠ .ok (.record a k) := by
  by_cases h : ∃ a k, (r.step p).result = .ok (.record a k)
  · obtain ⟨a, k, hs⟩ := h
    have inside := r.inside p a k hs
    obtain ⟨l, q, hp, hq⟩ := exists_passes r (p + (k + 1))
    exact ⟨a :: l, q, .cons hs hp, hq⟩
  · exact ⟨[], p, .nil, fun a k hs => h ⟨a, k, hs⟩⟩
termination_by r.size - p

/-- A walk succeeds exactly when it gets to a terminator. -/
theorem walk_eq_ok_iff {p next : Nat} {l : List α} :
    (r.walk p).result = .ok (l, next) ↔
      ∃ q w, r.Passes p l q ∧ (r.step q).result = .ok (.stop w) ∧ next = q + w := by
  constructor
  · intro h
    obtain ⟨l', q, hp, hq⟩ := exists_passes r p
    rw [walk, hp.result_walkAfter] at h
    cases hs : (r.step q).result with
    | error f => rw [result_walkAfter_error hs] at h; cases h
    | ok s =>
        cases s with
        | record a k => exact absurd hs (hq a k)
        | stop w =>
            rw [result_walkAfter_stop hs] at h
            obtain ⟨rfl, rfl⟩ : l' = l ∧ q + w = next := by simpa using h
            exact ⟨q, w, hp, hs, rfl⟩
  · rintro ⟨q, w, hp, hs, rfl⟩
    rw [walk, hp.result_walkAfter, result_walkAfter_stop hs]
    simp

/-- A walk fails exactly when it gets to a cursor whose reading fails. -/
theorem walk_eq_error_iff {p : Nat} {f : Fault} :
    (r.walk p).result = .error f ↔ ∃ l q, r.Passes p l q ∧ (r.step q).result = .error f := by
  constructor
  · intro h
    obtain ⟨l, q, hp, hq⟩ := exists_passes r p
    rw [walk, hp.result_walkAfter] at h
    cases hs : (r.step q).result with
    | error g =>
        rw [result_walkAfter_error hs] at h
        cases h
        exact ⟨l, q, hp, hs⟩
    | ok s =>
        cases s with
        | record a k => exact absurd hs (hq a k)
        | stop w => rw [result_walkAfter_stop hs] at h; cases h
  · rintro ⟨l, q, hp, hs⟩
    rw [walk, hp.result_walkAfter, result_walkAfter_error hs]

/-- Two walks are the same when they read the same at every cursor that the
first of them gets to. -/
theorem walkAfter_congr {r' : Records α} (hnote : r'.note = r.note) {p : Nat}
    (hstep : ∀ l q, r.Passes p l q → r'.step q = r.step q) (read : List α) :
    r'.walkAfter read p = r.walkAfter read p := by
  have here : r'.step p = r.step p := hstep [] p .nil
  match h : r.step p with
  | ⟨.ok (.record a k), events, far⟩ =>
      have hs : (r.step p).result = .ok (.record a k) := by rw [h]
      have inside := r.inside p a k hs
      have behind := walkAfter_congr hnote (p := p + (k + 1))
        (fun l q hpass => hstep (a :: l) q (.cons hs hpass)) (a :: read)
      rw [r'.walkAfter_record (here.trans h), r.walkAfter_record h, behind, hnote]
  | ⟨.ok (.stop w), events, far⟩ =>
      rw [r'.walkAfter_stop (here.trans h), r.walkAfter_stop h]
  | ⟨.error f, events, far⟩ =>
      rw [r'.walkAfter_error (here.trans h), r.walkAfter_error h]
termination_by r.size - p

theorem walk_congr {r' : Records α} (hnote : r'.note = r.note) {p : Nat}
    (hstep : ∀ l q, r.Passes p l q → r'.step q = r.step q) : r'.walk p = r.walk p :=
  walkAfter_congr hnote hstep []

/-! ## Places

Often the place of the next record is settled by the place of the one in
front of it.  The records then stand at the places that are had by going from
one to the next, and a passage is told by what stands there. -/

/-- Records of `n` bytes each stand `n` bytes apart. -/
theorem iterate_stride (n k p : Nat) : (fun q => q + n)^[k] p = p + n * k := by
  induction k with
  | zero => rfl
  | succ k ih => rw [Function.iterate_succ_apply', ih, Nat.mul_succ, Nat.add_assoc]

/-- The record behind the one at `p` stands at `next p`, and `At p a` says
that the record at `p` is `a`. -/
structure Places (r : Records α) (next : Nat → Nat) (At : Nat → α → Prop) : Prop where
  record : ∀ p a, (∃ k, (r.step p).result = .ok (.record a k)) ↔ At p a
  behind : ∀ p a k, (r.step p).result = .ok (.record a k) → p + (k + 1) = next p

namespace Places

variable {next : Nat → Nat} {At : Nat → α → Prop}

theorem passes_cons_iff (h : r.Places next At) {p q : Nat} {a : α} {l : List α} :
    r.Passes p (a :: l) q ↔ At p a ∧ r.Passes (next p) l q := by
  constructor
  · intro hpass
    cases hpass with
    | cons hs hl => exact ⟨(h.record p a).1 ⟨_, hs⟩, h.behind p a _ hs ▸ hl⟩
  · rintro ⟨ha, hl⟩
    obtain ⟨k, hs⟩ := (h.record p a).2 ha
    exact .cons hs ((h.behind p a k hs).symm ▸ hl)

/-- A passage is told by the records at the places that it goes through. -/
theorem passes_iff (h : r.Places next At) {l : List α} {p q : Nat} :
    r.Passes p l q ↔
      (∀ k a, l[k]? = some a → At (next^[k] p) a) ∧ q = next^[l.length] p := by
  induction l generalizing p with
  | nil =>
      constructor
      · intro hpass
        cases hpass
        exact ⟨fun k a ha => absurd ha (by simp), rfl⟩
      · rintro ⟨-, rfl⟩
        exact .nil
  | cons a l ih =>
      rw [h.passes_cons_iff, ih]
      constructor
      · rintro ⟨ha, hl, hq⟩
        refine ⟨?_, hq⟩
        intro k b hb
        cases k with
        | zero => exact Option.some.inj hb ▸ ha
        | succ k => exact hl k b hb
      · rintro ⟨hl, hq⟩
        exact ⟨hl 0 a rfl, fun k b hb => hl (k + 1) b hb, hq⟩

/-- Where records stand at the first `k` places, a walk gets to the next one. -/
theorem exists_passes (h : r.Places next At) {k p : Nat}
    (hk : ∀ j < k, ∃ a, At (next^[j] p) a) : ∃ l, l.length = k ∧ r.Passes p l (next^[k] p) := by
  induction k generalizing p with
  | zero => exact ⟨[], rfl, .nil⟩
  | succ k ih =>
      obtain ⟨a, ha⟩ := hk 0 (Nat.succ_pos k)
      obtain ⟨l, hlen, hpass⟩ := ih fun j hj => hk (j + 1) (Nat.succ_lt_succ hj)
      exact ⟨a :: l, congrArg Nat.succ hlen, h.passes_cons_iff.2 ⟨ha, hpass⟩⟩

/-- A record stands at every place that a passage has left. -/
theorem exists_at_of_passes (h : r.Places next At) {l : List α} {p q : Nat}
    (hpass : r.Passes p l q) : ∀ j < l.length, ∃ a, At (next^[j] p) a := by
  intro j hj
  exact ⟨l[j], (h.passes_iff.1 hpass).1 j l[j] (List.getElem?_eq_getElem hj)⟩

/-- A walk fails exactly at the first place where reading fails. -/
theorem walk_eq_error_iff (h : r.Places next At) {p : Nat} {f : Fault} :
    (r.walk p).result = .error f ↔
      ∃ k, (∀ j < k, ∃ a, At (next^[j] p) a) ∧ (r.step (next^[k] p)).result = .error f := by
  rw [Records.walk_eq_error_iff]
  constructor
  · rintro ⟨l, q, hpass, hs⟩
    obtain ⟨-, rfl⟩ := h.passes_iff.1 hpass
    exact ⟨l.length, h.exists_at_of_passes hpass, hs⟩
  · rintro ⟨k, hk, hs⟩
    obtain ⟨l, -, hpass⟩ := h.exists_passes hk
    exact ⟨l, _, hpass, hs⟩

end Places

end Records

/-! ## Packed tables -/

section Packed

variable {α : Type} {item : (index p : Nat) → Reading (α × Nat)}

/-- The items `l`, numbered from `index`, stand one behind the other from `p` to `q`. -/
inductive Packs (item : (index p : Nat) → Reading (α × Nat)) :
    (index p : Nat) → (l : List α) → (q : Nat) → Prop where
  | nil {index p : Nat} : Packs item index p [] p
  | cons {index p mid : Nat} {a : α} {l : List α} {q : Nat} :
      (item index p).result = .ok (a, mid) → Packs item (index + 1) mid l q →
        Packs item index p (a :: l) q

/-- What holds of every item that can be read holds of the packed ones. -/
theorem Packs.forall {Q : α → Prop}
    (step : ∀ index p a next, (item index p).result = .ok (a, next) → Q a)
    {index p q : Nat} {l : List α} (h : Packs item index p l q) : ∀ a ∈ l, Q a := by
  induction h with
  | nil => exact fun _ h => nomatch h
  | cons hs _ ih => exact List.forall_mem_cons.2 ⟨step _ _ _ _ hs, ih⟩

theorem packedAfter_eq_ok_iff {read l : List α} {index left p next : Nat} :
    (packedAfter item read index left p).result = .ok (l, next) ↔
      ∃ more, l = read.reverse ++ more ∧ more.length = left ∧ Packs item index p more next := by
  induction left generalizing read index p with
  | zero =>
      rw [packedAfter_zero]
      constructor
      · intro h
        obtain ⟨rfl, rfl⟩ : read.reverse = l ∧ p = next := by simpa using h
        exact ⟨[], by simp, rfl, .nil⟩
      · rintro ⟨more, rfl, hlen, hp⟩
        cases List.length_eq_zero_iff.1 hlen
        cases hp
        simp
  | succ left ih =>
      rw [packedAfter_succ, Reading.bind_eq_ok_iff]
      constructor
      · rintro ⟨⟨a, mid⟩, ha, h⟩
        obtain ⟨more, rfl, hlen, hp⟩ := ih.1 h
        exact ⟨a :: more, by simp, by simp [hlen], .cons ha hp⟩
      · rintro ⟨more, rfl, hlen, hp⟩
        cases hp with
        | nil => cases hlen
        | cons ha hp =>
            refine ⟨_, ha, ih.2 ⟨_, by simp, ?_, hp⟩⟩
            simpa using hlen

/-- A packed table of `count` items is read exactly when they stand there. -/
theorem packed_eq_ok_iff {count p next : Nat} {l : List α} :
    (packed item count p).result = .ok (l, next) ↔
      l.length = count ∧ Packs item 0 p l next := by
  rw [packed, packedAfter_eq_ok_iff]
  constructor
  · rintro ⟨more, rfl, hlen, hp⟩
    exact ⟨hlen, hp⟩
  · rintro ⟨hlen, hp⟩
    exact ⟨l, rfl, hlen, hp⟩

theorem packedAfter_eq_error_iff {read : List α} {index left p : Nat} {f : Fault} :
    (packedAfter item read index left p).result = .error f ↔
      ∃ l q, l.length < left ∧ Packs item index p l q ∧
        (item (index + l.length) q).result = .error f := by
  induction left generalizing read index p with
  | zero =>
      rw [packedAfter_zero]
      constructor
      · intro h
        cases h
      · rintro ⟨l, q, hlen, _⟩
        exact absurd hlen (Nat.not_lt_zero _)
  | succ left ih =>
      rw [packedAfter_succ, Reading.bind_eq_error_iff]
      constructor
      · rintro (h | ⟨⟨a, mid⟩, ha, h⟩)
        · exact ⟨[], p, Nat.succ_pos left, .nil, h⟩
        · obtain ⟨l, q, hlen, hp, hq⟩ := ih.1 h
          refine ⟨a :: l, q, Nat.succ_lt_succ hlen, .cons ha hp, ?_⟩
          rw [List.length_cons, Nat.add_comm l.length, ← Nat.add_assoc]
          exact hq
      · rintro ⟨l, q, hlen, hp, hq⟩
        cases hp with
        | nil => exact .inl hq
        | @cons _ _ mid a l _ ha hp =>
            refine .inr ⟨(a, mid), ha, ih.2 ⟨l, q, Nat.lt_of_succ_lt_succ hlen, hp, ?_⟩⟩
            rw [Nat.add_assoc, Nat.add_comm 1]
            exact hq

/-- A packed table fails exactly at the first of its items that cannot be read. -/
theorem packed_eq_error_iff {count p : Nat} {f : Fault} :
    (packed item count p).result = .error f ↔
      ∃ l q, l.length < count ∧ Packs item 0 p l q ∧ (item l.length q).result = .error f := by
  rw [packed, packedAfter_eq_error_iff]
  simp only [Nat.zero_add]

end Packed

end Adventure
