/-
# Resolving a header, read by read

Behind an anchor stand four counts and eight words, read in their order, and
four of the words name a cell that is read as soon as its word has been.
`Header.StandsBehind` says what the fields of a header are, and
`Header.Fails` how it cannot be resolved: the header is cut off, or a cell is
missing.  A missing cell can be met only when its word is there in full; then
it comes before whatever is missing behind that word.

`Header.Reached m anchor k` holds when the first `k` words and their cells
have been read.  Each word either leads from there to the next one or fails
in one of the two ways.  The main statement is `resolve_reads`; it asks for
no marker at the anchor.
-/
import Adventure.Proofs.Offset

namespace Adventure

/-! ## Words -/

namespace Snapshot

variable {m : Snapshot} {part : Section} {a k w : Nat}

/-- The little-endian word at an address, where both of its bytes are there. -/
def word? (m : Snapshot) (a : Nat) : Option Nat := do
  let low ← m.get? a
  let high ← m.get? (a + 1)
  pure (low.toNat + 256 * high.toNat)

theorem wordAt_eq_ok_iff_word? :
    (m.wordAt part a k).result = .ok w ↔ m.word? (a + k) = some w := by
  rw [wordAt_eq_ok_iff]
  simp only [word?, Option.bind_eq_bind, Option.bind_eq_some_iff, Option.pure_def,
    Option.some.injEq]
  constructor
  · rintro ⟨low, high, hlow, hhigh, rfl⟩
    exact ⟨low, hlow, high, hhigh, rfl⟩
  · rintro ⟨low, hlow, high, hhigh, rfl⟩
    exact ⟨low, high, hlow, hhigh, rfl⟩

theorem exists_word? (h : a + 2 ≤ m.size) : ∃ w, m.word? a = some w := by
  obtain ⟨low, hlow⟩ := exists_get? (m := m) (a := a) (by omega)
  obtain ⟨high, hhigh⟩ := exists_get? (m := m) (a := a + 1) (by omega)
  exact ⟨low.toNat + 256 * high.toNat, by simp [word?, hlow, hhigh]⟩

/-- A word that is there is inside the snapshot. -/
theorem inside_of_word? (h : m.word? a = some w) : a + 2 ≤ m.size := by
  have hw : (m.wordAt .header a 0).result = .ok w := wordAt_eq_ok_iff_word?.2 h
  obtain ⟨_, _, -, hhigh, -⟩ := wordAt_eq_ok_iff.1 hw
  exact lt_size_of_get? hhigh

end Snapshot

namespace Header

variable {m : Snapshot} {part : Section} {anchor k : Nat} {f : Fault} {h : Header}

/-! ## What a header says -/

/-- Where the word number `n` stands, behind the four counts. -/
def wordPlace (anchor n : Nat) : Nat :=
  anchor + 17 + 2 * n

/-- The counts and four of the words are fields themselves; each of the other
words is the address of a cell, and the word in the cell is the field. -/
structure StandsBehind (m : Snapshot) (anchor : Nat) (h : Header) : Prop where
  carried : m.get? (anchor + 13) = some h.carried
  objectCount : m.get? (anchor + 14) = some h.objectCount
  locationCount : m.get? (anchor + 15) = some h.locationCount
  messageCount : m.get? (anchor + 16) = some h.messageCount
  responses : m.word? (anchor + 17) = some h.responses
  processes : m.word? (anchor + 19) = some h.processes
  objects : (m.word? (anchor + 21)).bind m.word? = some h.objects
  locations : (m.word? (anchor + 23)).bind m.word? = some h.locations
  messages : (m.word? (anchor + 25)).bind m.word? = some h.messages
  connections : (m.word? (anchor + 27)).bind m.word? = some h.connections
  vocabulary : m.word? (anchor + 29) = some h.vocabulary
  positions : m.word? (anchor + 31) = some h.positions
  anchor : h.anchor = anchor

theorem field_eq_ok_iff {n w : Nat} :
    (field m (anchor + distance) n).result = .ok w ↔ m.word? (wordPlace anchor n) = some w := by
  rw [field, Snapshot.wordAt_eq_ok_iff_word?, wordPlace]
  rw [show anchor + distance + (4 + 2 * n) = anchor + 17 + 2 * n by simp only [distance]; omega]

theorem throughCell_eq_ok_iff {n w : Nat} :
    (throughCell m (anchor + distance) n part).result = .ok w ↔
      (m.word? (wordPlace anchor n)).bind m.word? = some w := by
  rw [throughCell, Reading.bind_eq_ok_iff, Option.bind_eq_some_iff]
  simp only [field_eq_ok_iff, Snapshot.word, Snapshot.wordAt_eq_ok_iff_word?, Nat.add_zero]

theorem resolve_eq_ok_iff_standsBehind :
    (resolve m anchor).result = .ok h ↔ StandsBehind m anchor h := by
  rw [resolve_eq_ok_iff]
  constructor
  · intro hr
    exact
      { carried := hr.carried
        objectCount := hr.objectCount
        locationCount := hr.locationCount
        messageCount := hr.messageCount
        responses := field_eq_ok_iff.1 hr.responses
        processes := field_eq_ok_iff.1 hr.processes
        objects := throughCell_eq_ok_iff.1 hr.objects
        locations := throughCell_eq_ok_iff.1 hr.locations
        messages := throughCell_eq_ok_iff.1 hr.messages
        connections := throughCell_eq_ok_iff.1 hr.connections
        vocabulary := field_eq_ok_iff.1 hr.vocabulary
        positions := field_eq_ok_iff.1 hr.positions
        anchor := hr.anchor }
  · intro hs
    exact
      { carried := hs.carried
        objectCount := hs.objectCount
        locationCount := hs.locationCount
        messageCount := hs.messageCount
        responses := field_eq_ok_iff.2 hs.responses
        processes := field_eq_ok_iff.2 hs.processes
        objects := throughCell_eq_ok_iff.2 hs.objects
        locations := throughCell_eq_ok_iff.2 hs.locations
        messages := throughCell_eq_ok_iff.2 hs.messages
        connections := throughCell_eq_ok_iff.2 hs.connections
        vocabulary := field_eq_ok_iff.2 hs.vocabulary
        positions := field_eq_ok_iff.2 hs.positions
        anchor := hs.anchor }

/-! ## How it fails -/

/-- Of the cells that the words in front of number `k` name, none is missing. -/
def CellsInside (m : Snapshot) (anchor k : Nat) : Prop :=
  ∀ n part cell, (n, part) ∈ cells → n < k → m.word? (wordPlace anchor n) = some cell →
    cell + 2 ≤ m.size

/-- The ways in which the header behind an anchor cannot be resolved. -/
inductive Fails (m : Snapshot) (anchor : Nat) : Fault → Prop where
  /-- The header is cut off, and no cell that it names before is missing. -/
  | truncated : m.size < anchor + 33 → CellsInside m anchor 8 →
      Fails m anchor (.malformed .header (max (anchor + 13) m.size))
  /-- A cell is missing, the first of those that are. -/
  | dangling {n : Nat} {part : Section} {cell : Nat} : (n, part) ∈ cells →
      m.word? (wordPlace anchor n) = some cell → m.size < cell + 2 → CellsInside m anchor n →
      Fails m anchor (.malformed part (max cell m.size))

theorem lt_of_mem_cells {n : Nat} (h : (n, part) ∈ cells) : n < 8 := by
  have all : ∀ c ∈ cells, c.1 < 8 := by decide
  exact all _ h

/-- A word names one cell. -/
theorem part_unique {n : Nat} {part' : Section} (h : (n, part) ∈ cells)
    (h' : (n, part') ∈ cells) : part = part' := by
  have all : ∀ c ∈ cells, ∀ d ∈ cells, c.1 = d.1 → c.2 = d.2 := by decide
  exact all _ h _ h' rfl

/-- There is one first failure. -/
theorem Fails.unique {g : Fault} (hf : Fails m anchor f) (hg : Fails m anchor g) : f = g := by
  cases hf with
  | truncated _ hcells =>
      cases hg with
      | truncated => rfl
      | dangling hn hword hmissing _ =>
          have := hcells _ _ _ hn (lt_of_mem_cells hn) hword
          omega
  | @dangling n part cell hn hword hmissing hbefore =>
      cases hg with
      | truncated _ hcells =>
          have := hcells _ _ _ hn (lt_of_mem_cells hn) hword
          omega
      | @dangling n' part' cell' hn' hword' hmissing' hbefore' =>
          rcases Nat.lt_trichotomy n n' with hlt | rfl | hgt
          · have := hbefore' _ _ _ hn hlt hword
            omega
          · obtain rfl := part_unique hn hn'
            rw [hword] at hword'
            cases hword'
            rfl
          · have := hbefore _ _ _ hn' hgt hword'
            omega

/-! ## Word by word -/

/-- The counts and the first `k` words have been read, and so have their cells. -/
structure Reached (m : Snapshot) (anchor k : Nat) : Prop where
  inside : wordPlace anchor k ≤ m.size
  found : CellsInside m anchor k

/-- Where all words have been read, nothing fails. -/
theorem Reached.not_fails (h : Reached m anchor 8) : ¬ Fails m anchor f := by
  intro hf
  cases hf with
  | truncated hsize _ =>
      have : anchor + 17 + 2 * 8 ≤ m.size := h.inside
      omega
  | dangling hn hword hmissing _ =>
      have := h.found _ _ _ hn (lt_of_mem_cells hn) hword
      omega

/-- Where the next word is cut off, no cell behind it can be named. -/
theorem Reached.truncated (h : Reached m anchor k) (hk : k < 8)
    (hsize : m.size < wordPlace anchor k + 2) :
    Fails m anchor (.malformed .header (max (anchor + 13) m.size)) := by
  simp only [wordPlace] at hsize
  refine .truncated (by omega) fun n part cell hn _ hword => h.found n part cell hn ?_ hword
  have := Snapshot.inside_of_word? hword
  simp only [wordPlace] at this
  omega

/-- A read either leads on to the next word or fails as the header does. -/
structure Advances {α : Type} (m : Snapshot) (anchor k : Nat) (r : Reading α) : Prop where
  ok : ∀ a, r.result = .ok a → Reached m anchor (k + 1)
  error : ∀ f, r.result = .error f → Fails m anchor f

theorem Reached.field_fails (h : Reached m anchor k) (hk : k < 8)
    (hf : (field m (anchor + distance) k).result = .error f) : Fails m anchor f := by
  obtain ⟨hsize, rfl⟩ := Snapshot.wordAt_eq_error_iff.1 hf
  have hinside : anchor + 17 + 2 * k ≤ m.size := h.inside
  simp only [distance] at hsize ⊢
  rw [show max (anchor + 13 + (4 + 2 * k)) m.size = max (anchor + 13) m.size by omega]
  exact h.truncated hk (by simp only [wordPlace]; omega)

/-- A word that is a field. -/
theorem Reached.field_advances (h : Reached m anchor k) (hk : k < 8)
    (hcell : k ∉ cells.map Prod.fst) : Advances m anchor k (field m (anchor + distance) k) where
  ok := by
    intro w hw
    refine ⟨Snapshot.inside_of_word? (field_eq_ok_iff.1 hw), fun n part cell hn hlt hword => ?_⟩
    rcases Nat.lt_succ_iff_lt_or_eq.1 hlt with hlt | rfl
    · exact h.found n part cell hn hlt hword
    · exact absurd (List.mem_map_of_mem hn) hcell
  error := fun f hf => h.field_fails hk hf

/-- A word that names a cell, and the cell. -/
theorem Reached.throughCell_advances (h : Reached m anchor k) (hk : (k, part) ∈ cells) :
    Advances m anchor k (throughCell m (anchor + distance) k part) where
  ok := by
    intro w hw
    obtain ⟨cell, hcell, hin⟩ := Option.bind_eq_some_iff.1 (throughCell_eq_ok_iff.1 hw)
    refine ⟨Snapshot.inside_of_word? hcell, fun n part cell' hn hlt hword => ?_⟩
    rcases Nat.lt_succ_iff_lt_or_eq.1 hlt with hlt | rfl
    · exact h.found n part cell' hn hlt hword
    · rw [hcell] at hword
      cases hword
      exact Snapshot.inside_of_word? hin
  error := by
    intro f hf
    rcases Reading.bind_eq_error_iff.1 hf with hf | ⟨cell, hcell, hf⟩
    · exact h.field_fails (lt_of_mem_cells hk) hf
    · obtain ⟨hmissing, rfl⟩ := Snapshot.wordAt_eq_error_iff.1 hf
      exact .dangling hk (field_eq_ok_iff.1 hcell) hmissing h.found

/-- The whole reading comes to the end of the header, or fails as the header does. -/
structure Settles {α : Type} (m : Snapshot) (anchor : Nat) (r : Reading α) : Prop where
  ok : ∀ a, r.result = .ok a → Reached m anchor 8
  error : ∀ f, r.result = .error f → Fails m anchor f

theorem Advances.settles {α β : Type} {r : Reading α} {next : α → Reading β}
    (hr : Advances m anchor k r)
    (hnext : Reached m anchor (k + 1) → ∀ a, Settles m anchor (next a)) :
    Settles m anchor (r >>= next) where
  ok := by
    intro b hb
    obtain ⟨a, ha, hb⟩ := Reading.bind_eq_ok_iff.1 hb
    exact (hnext (hr.ok a ha) a).ok b hb
  error := by
    intro f hf
    rcases Reading.bind_eq_error_iff.1 hf with hf | ⟨a, ha, hf⟩
    · exact hr.error f hf
    · exact (hnext (hr.ok a ha) a).error f hf

/-- A count that is missing, behind others that are there. -/
theorem settles_count {α : Type} {next : UInt8 → Reading α} {base n : Nat}
    (hbase : base + n < anchor + 17)
    (hmax : m.size ≤ base + n → base + n = max (anchor + 13) m.size)
    (hnext : base + n < m.size → ∀ b, Settles m anchor (next b)) :
    Settles m anchor (m.byteAt .header base n >>= next) where
  ok := by
    intro a ha
    obtain ⟨b, hb, ha⟩ := Reading.bind_eq_ok_iff.1 ha
    exact (hnext (Snapshot.lt_size_of_get? (Snapshot.byteAt_eq_ok_iff.1 hb)) b).ok a ha
  error := by
    intro f hf
    rcases Reading.bind_eq_error_iff.1 hf with hf | ⟨b, hb, hf⟩
    · obtain ⟨hsize, rfl⟩ := Snapshot.byteAt_eq_error_iff.1 hf
      rw [hmax hsize]
      refine .truncated (by omega) fun n part cell _ _ hword => ?_
      -- No word is there, and so no cell is named.
      have := Snapshot.inside_of_word? hword
      simp only [wordPlace] at this
      omega
    · exact (hnext (Snapshot.lt_size_of_get? (Snapshot.byteAt_eq_ok_iff.1 hb)) b).error f hf

theorem settles_resolve (m : Snapshot) (anchor : Nat) : Settles m anchor (resolve m anchor) := by
  refine settles_count (by simp only [distance]; omega) (by simp only [distance]; omega)
    fun h0 carried => ?_
  refine settles_count (by simp only [distance]; omega) (by simp only [distance] at *; omega)
    fun h1 objectCount => ?_
  refine settles_count (by simp only [distance]; omega) (by simp only [distance] at *; omega)
    fun h2 locationCount => ?_
  refine settles_count (by simp only [distance]; omega) (by simp only [distance] at *; omega)
    fun h3 messageCount => ?_
  have inside : wordPlace anchor 0 ≤ m.size := by
    simp only [wordPlace, distance] at *
    omega
  have reached : Reached m anchor 0 :=
    ⟨inside, fun _ _ _ _ hlt _ => absurd hlt (Nat.not_lt_zero _)⟩
  refine (reached.field_advances (by decide) (by decide)).settles fun reached responses => ?_
  refine (reached.field_advances (by decide) (by decide)).settles fun reached processes => ?_
  refine (reached.throughCell_advances (by decide)).settles fun reached objects => ?_
  refine (reached.throughCell_advances (by decide)).settles fun reached locations => ?_
  refine (reached.throughCell_advances (by decide)).settles fun reached messages => ?_
  refine (reached.throughCell_advances (by decide)).settles fun reached connections => ?_
  refine (reached.field_advances (by decide) (by decide)).settles fun reached vocabulary => ?_
  refine (reached.field_advances (by decide) (by decide)).settles fun reached positions => ?_
  refine ⟨fun _ _ => reached, ?_⟩
  intro f hf
  cases hf

/-! ## The whole header -/

/-- What resolving the header behind an anchor comes to. -/
structure ReadsHeader (m : Snapshot) (anchor : Nat) : Prop where
  /-- A header is resolved exactly when it is inside the snapshot and so are
  the cells that it names. -/
  succeeds : (∃ h, (resolve m anchor).result = .ok h) ↔
    anchor + 33 ≤ m.size ∧ ∀ n part, (n, part) ∈ cells →
      ∃ cell, m.word? (anchor + 17 + 2 * n) = some cell ∧ cell + 2 ≤ m.size
  /-- It is then the one that stands there. -/
  fields : ∀ h, (resolve m anchor).result = .ok h ↔ StandsBehind m anchor h
  /-- Otherwise the first read that fails is to blame. -/
  fails : ∀ f, (resolve m anchor).result = .error f ↔ Fails m anchor f

/-- Headers are resolved read by read, behind every anchor. -/
theorem resolve_reads (m : Snapshot) (anchor : Nat) : ReadsHeader m anchor := by
  have settles := settles_resolve m anchor
  have reached : (∃ h, (resolve m anchor).result = .ok h) ↔ Reached m anchor 8 := by
    constructor
    · rintro ⟨h, hr⟩
      exact settles.ok h hr
    · intro hreached
      cases hr : (resolve m anchor).result with
      | ok h => exact ⟨h, rfl⟩
      | error f => exact absurd (settles.error f hr) hreached.not_fails
  refine ⟨?succeeds, fun h => resolve_eq_ok_iff_standsBehind, ?fails⟩
  case succeeds =>
    rw [reached]
    constructor
    · rintro ⟨hinside, hcells⟩
      have hinside : anchor + 33 ≤ m.size := hinside
      refine ⟨hinside, fun n part hn => ?_⟩
      have hlt := lt_of_mem_cells hn
      obtain ⟨cell, hword⟩ := Snapshot.exists_word? (m := m) (a := anchor + 17 + 2 * n) (by omega)
      exact ⟨cell, hword, hcells n part cell hn hlt hword⟩
    · rintro ⟨hinside, hcells⟩
      refine ⟨hinside, fun n part cell hn _ hword => ?_⟩
      obtain ⟨cell', hword', hcell⟩ := hcells n part hn
      rw [wordPlace, hword'] at hword
      exact Option.some.inj hword ▸ hcell
  case fails =>
    intro f
    constructor
    · exact settles.error f
    · intro hf
      cases hr : (resolve m anchor).result with
      | ok h => exact absurd hf (settles.ok h hr).not_fails
      | error g => rw [hf.unique (settles.error g hr)]

end Header
end Adventure
