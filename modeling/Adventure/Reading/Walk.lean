/-
# Walking a table

Every table of a database is read in one of two ways.  A list of records is
walked from a cursor until a terminator is met (`Records.walk`); a packed
table holds a given number of items, each starting where the one before it
ended (`packed`).

`Records` says how one record is read at a cursor and which events follow
once it has been read.  A record takes at least one byte and is only found
inside the snapshot, and so a walk ends: at its terminator, or at a fault.
`walkAfter_record`, `walkAfter_stop` and `walkAfter_error` say what a walk
comes to, one record at a time, and `packedAfter_zero` and `packedAfter_succ`
the same of a packed table; the loops behind both carry what has been read in
accumulators.
-/
import Adventure.Reading

namespace Adventure

/-- What stands at a cursor in a list of records. -/
inductive Step (α : Type) where
  /-- A record of `more + 1` bytes. -/
  | record (a : α) (more : Nat)
  /-- The terminator, of `width` bytes. -/
  | stop (width : Nat)

/-- How the records of a list are read from a snapshot of `size` bytes. -/
structure Records (α : Type) where
  size : Nat
  /-- Read the record at a cursor. -/
  step : Nat → Reading (Step α)
  /-- The events that follow a record; they may depend on the records before
  it, which come with the latest first. -/
  note : (earlier : List α) → (cursor : Nat) → α → List Event
  inside : ∀ p a k, (step p).result = .ok (.record a k) → p < size

namespace Records

variable {α : Type}

/-- The walk from `p` after the records `read`, the latest first. `log` holds
the events so far, the latest first, and `reach` the reach so far. -/
def walkFrom (r : Records α) (p : Nat) (read : List α) (log : List Event) (reach : Nat) :
    Reading (List α × Nat) :=
  match h : r.step p with
  | ⟨.ok (.record a k), events, far⟩ =>
      r.walkFrom (p + (k + 1)) (a :: read)
        ((r.note read p a).reverseAux (events.reverseAux log))
        (max (max reach far) (p + (k + 1)))
  | ⟨.ok (.stop w), events, far⟩ =>
      ⟨.ok (read.reverse, p + w), (events.reverseAux log).reverse,
        max (max reach far) (p + w)⟩
  | ⟨.error f, events, far⟩ =>
      ⟨.error f, (events.reverseAux log).reverse, max reach far⟩
termination_by r.size - p
decreasing_by
  have := r.inside p a k (by rw [h])
  omega

/-- The walk from `p` on when the records `read` came before, the latest first. -/
def walkAfter (r : Records α) (read : List α) (p : Nat) : Reading (List α × Nat) :=
  r.walkFrom p read [] 0

/-- The records from `p` on, and the offset just past their terminator. -/
def walk (r : Records α) (p : Nat) : Reading (List α × Nat) :=
  r.walkAfter [] p

end Records

/-! ## Packed items -/

section Packed

variable {α : Type}

/-- `left` more items from `p` on, numbered from `index`, after the items `read`. -/
def packedFrom (item : (index p : Nat) → Reading (α × Nat)) (index p : Nat) (read : List α)
    (log : List Event) (reach : Nat) : (left : Nat) → Reading (List α × Nat)
  | 0 => ⟨.ok (read.reverse, p), log.reverse, reach⟩
  | left + 1 =>
      match item index p with
      | ⟨.ok (a, next), events, far⟩ =>
          packedFrom item (index + 1) next (a :: read) (events.reverseAux log) (max reach far) left
      | ⟨.error f, events, far⟩ =>
          ⟨.error f, (events.reverseAux log).reverse, max reach far⟩

/-- `left` items from `p` on when the items `read` came before, the latest first. -/
def packedAfter (item : (index p : Nat) → Reading (α × Nat)) (read : List α) (index left p : Nat) :
    Reading (List α × Nat) :=
  packedFrom item index p read [] 0 left

/-- `count` items one behind the other from `p` on, and the offset behind them. -/
def packed (item : (index p : Nat) → Reading (α × Nat)) (count p : Nat) :
    Reading (List α × Nat) :=
  packedAfter item [] 0 count p

end Packed

/-! ## What the loops come to -/

namespace Records

variable {α : Type} (r : Records α)

theorem walkFrom_record {p : Nat} {a : α} {k : Nat} {events : List Event} {far : Nat}
    (h : r.step p = ⟨.ok (.record a k), events, far⟩) (read : List α) (log : List Event)
    (reach : Nat) :
    r.walkFrom p read log reach =
      r.walkFrom (p + (k + 1)) (a :: read) ((r.note read p a).reverseAux (events.reverseAux log))
        (max (max reach far) (p + (k + 1))) := by
  rw [walkFrom]
  split <;> simp_all

theorem walkFrom_stop {p w : Nat} {events : List Event} {far : Nat}
    (h : r.step p = ⟨.ok (.stop w), events, far⟩) (read : List α) (log : List Event)
    (reach : Nat) :
    r.walkFrom p read log reach =
      ⟨.ok (read.reverse, p + w), (events.reverseAux log).reverse,
        max (max reach far) (p + w)⟩ := by
  rw [walkFrom]
  split <;> simp_all

theorem walkFrom_error {p : Nat} {f : Fault} {events : List Event} {far : Nat}
    (h : r.step p = ⟨.error f, events, far⟩) (read : List α) (log : List Event) (reach : Nat) :
    r.walkFrom p read log reach =
      ⟨.error f, (events.reverseAux log).reverse, max reach far⟩ := by
  rw [walkFrom]
  split <;> simp_all

/-- What was met earlier only comes first: its events before the later ones,
and the greater reach. -/
theorem walkFrom_eq (p : Nat) (read : List α) (log : List Event) (reach : Nat) :
    r.walkFrom p read log reach = (r.walkAfter read p).after log.reverse reach := by
  match h : r.step p with
  | ⟨.ok (.record a k), events, far⟩ =>
      have inside := r.inside p a k (by rw [h])
      rw [walkAfter, r.walkFrom_record h, r.walkFrom_record h, walkFrom_eq,
        walkFrom_eq (p + (k + 1)) (a :: read) _ (max (max 0 far) (p + (k + 1)))]
      simp [Reading.after, Nat.max_assoc]
  | ⟨.ok (.stop w), events, far⟩ =>
      rw [walkAfter, r.walkFrom_stop h, r.walkFrom_stop h]
      simp [Reading.after, Nat.max_assoc]
  | ⟨.error f, events, far⟩ =>
      rw [walkAfter, r.walkFrom_error h, r.walkFrom_error h]
      simp [Reading.after]
termination_by r.size - p

/-- A record: the walk goes on behind it. -/
theorem walkAfter_record {p : Nat} {a : α} {k : Nat} {events : List Event} {far : Nat}
    (h : r.step p = ⟨.ok (.record a k), events, far⟩) (read : List α) :
    r.walkAfter read p =
      (r.walkAfter (a :: read) (p + (k + 1))).after (events ++ r.note read p a)
        (max far (p + (k + 1))) := by
  rw [walkAfter, r.walkFrom_record h, walkFrom_eq]
  simp

/-- The terminator: the walk is over. -/
theorem walkAfter_stop {p w : Nat} {events : List Event} {far : Nat}
    (h : r.step p = ⟨.ok (.stop w), events, far⟩) (read : List α) :
    r.walkAfter read p = ⟨.ok (read.reverse, p + w), events, max far (p + w)⟩ := by
  rw [walkAfter, r.walkFrom_stop h]
  simp

/-- A fault: so is the walk. -/
theorem walkAfter_error {p : Nat} {f : Fault} {events : List Event} {far : Nat}
    (h : r.step p = ⟨.error f, events, far⟩) (read : List α) :
    r.walkAfter read p = ⟨.error f, events, far⟩ := by
  rw [walkAfter, r.walkFrom_error h]
  simp

end Records

section Packed

variable {α : Type} (item : (index p : Nat) → Reading (α × Nat))

/-- What was met earlier only comes first. -/
theorem packedFrom_eq (index p : Nat) (read : List α) (log : List Event) (reach left : Nat) :
    packedFrom item index p read log reach left =
      (packedAfter item read index left p).after log.reverse reach := by
  induction left generalizing index p read log reach with
  | zero => simp [packedFrom, packedAfter, Reading.after]
  | succ left ih =>
      rw [packedAfter, packedFrom, packedFrom]
      match item index p with
      | ⟨.ok (a, next), events, far⟩ =>
          simp only
          rw [ih, ih (index + 1) next (a :: read) (events.reverseAux [])]
          simp [Reading.after, Nat.max_assoc]
      | ⟨.error f, events, far⟩ => simp [Reading.after]

/-- Nothing left to read. -/
theorem packedAfter_zero (read : List α) (index p : Nat) :
    packedAfter item read index 0 p = ⟨.ok (read.reverse, p), [], 0⟩ := by
  simp [packedAfter, packedFrom]

/-- One item, and the others behind it. -/
theorem packedAfter_succ (read : List α) (index left p : Nat) :
    packedAfter item read index (left + 1) p =
      item index p >>= fun out => packedAfter item (out.1 :: read) (index + 1) left out.2 := by
  rw [packedAfter, packedFrom]
  match item index p with
  | ⟨.ok (a, next), events, far⟩ =>
      simp only [Reading.bind_ok]
      rw [packedFrom_eq]
      simp
  | ⟨.error f, events, far⟩ => simp [Reading.bind_error]

end Packed
end Adventure
