/-
# The grammar of stored texts

`Token.Spans m p t q` says that the token `t` stands in the snapshot from `p`
to `q`, one constructor for each kind of token, and `StandsAt m p l next` that
the tokens `l` stand from `p` on with an end code behind them.  Neither
mentions a reading: they speak of codes at places, and a code is 255 less the
byte that is there.  `PackedAt` is several texts one behind the other.

The main statement is `read_grammar`.  A text is read exactly where the
grammar finds one, and what is read is what the grammar finds; where it finds
none, the fault is at the first byte that is missing.  A list of packed texts
is read in the same cases as the grammar finds them, and a shorter list is
the beginning of a longer one.
-/
import Adventure.Proofs.Text.Format

namespace Adventure

/-- The code at an address, where the snapshot has one. -/
def Snapshot.code? (m : Snapshot) (p : Nat) : Option UInt8 :=
  (m.get? p).map fun b => 255 - b

namespace Text

variable {m : Snapshot} {part : Section} {p q next : Nat} {f : Fault}

/-- The token stands in the snapshot from `p` to `q`. -/
inductive Token.Spans (m : Snapshot) : (p : Nat) → Token → (q : Nat) → Prop where
  | visible {p : Nat} {c : UInt8} : m.code? p = some c → 32 ≤ c → Spans m p (.visible c) (p + 1)
  | newline {p : Nat} {c : UInt8} : m.code? p = some newlineCode → m.code? (p + 1) = some c →
      c ≠ newlineCode → Spans m p .newline (p + 1)
  | paragraph {p : Nat} : m.code? p = some newlineCode → m.code? (p + 1) = some newlineCode →
      Spans m p .paragraph (p + 2)
  | ink {p : Nat} {c : UInt8} : m.code? p = some inkCode → m.code? (p + 1) = some c →
      Spans m p (.ink c) (p + 2)
  | paper {p : Nat} {c : UInt8} : m.code? p = some paperCode → m.code? (p + 1) = some c →
      Spans m p (.paper c) (p + 2)
  | control {p : Nat} {c : UInt8} : m.code? p = some c → c < 32 → c ≠ newlineCode →
      c ≠ inkCode → c ≠ paperCode → c ≠ endCode → Spans m p (.control c) (p + 1)

/-- The tokens stand one behind the other from `p` on, and an end code just before `next`. -/
inductive StandsAt (m : Snapshot) : (p : Nat) → List Token → (next : Nat) → Prop where
  | nil {p : Nat} : m.code? p = some endCode → StandsAt m p [] (p + 1)
  | cons {p q next : Nat} {t : Token} {l : List Token} :
      t.Spans m p q → StandsAt m q l next → StandsAt m p (t :: l) next

/-- The texts stand one behind the other from `p` to `next`. -/
inductive PackedAt (m : Snapshot) : (p : Nat) → List (List Token) → (next : Nat) → Prop where
  | nil {p : Nat} : PackedAt m p [] p
  | cons {p mid next : Nat} {l : List Token} {ls : List (List Token)} :
      StandsAt m p l mid → PackedAt m mid ls next → PackedAt m p (l :: ls) next

/-! ## Tokens -/

/-- The codes of a snapshot are those of the character set. -/
theorem code?_eq_map_code : m.code? p = (m.get? p).map Charset.code :=
  rfl

theorem code?_eq_some_iff {c : UInt8} : m.code? p = some c ↔ m.get? p = some (255 - c) := by
  simp only [code?_eq_map_code, Option.map_eq_some_iff, Charset.code_eq_iff, exists_eq_right]

theorem lt_size_of_code? {c : UInt8} (h : m.code? p = some c) : p < m.size :=
  Snapshot.lt_size_of_get? (code?_eq_some_iff.1 h)

/-- Only behind a newline it matters what follows. -/
theorem Token.ends_of_ne {t : Token} (h : t ≠ .newline) : t.Ends m p :=
  fun ht => absurd ht h

/-- A token stands where its codes do, if it is one and nothing behind it extends it. -/
theorem Token.spans_iff {t : Token} :
    t.Spans m p q ↔
      t.WellFormed ∧ q = p + t.codes.length ∧ m.Holds p t.bytes ∧ t.Ends m p := by
  constructor
  · intro h
    cases h with
    | visible h0 hc =>
        refine ⟨hc, rfl, ?_, ends_of_ne (by simp)⟩
        simpa [bytes, codes] using code?_eq_some_iff.1 h0
    | newline h0 h1 hne =>
        refine ⟨trivial, rfl, by simpa [bytes, codes] using code?_eq_some_iff.1 h0, ?_⟩
        exact fun _ => ⟨_, code?_eq_some_iff.1 h1, hne⟩
    | paragraph h0 h1 | ink h0 h1 | paper h0 h1 =>
        refine ⟨trivial, rfl, ?_, ends_of_ne (by simp)⟩
        simpa [bytes, codes] using ⟨code?_eq_some_iff.1 h0, code?_eq_some_iff.1 h1⟩
    | control h0 hlt hn hi hp he =>
        refine ⟨⟨hlt, hn, hi, hp, he⟩, rfl, ?_, ends_of_ne (by simp)⟩
        simpa [bytes, codes] using code?_eq_some_iff.1 h0
  · rintro ⟨ht, rfl, hheld, hend⟩
    cases t with
    | visible c =>
        have h0 : m.code? p = some c := code?_eq_some_iff.2 (Snapshot.holds_cons.1 hheld).1
        exact .visible h0 ht
    | newline =>
        have h0 : m.code? p = some newlineCode :=
          code?_eq_some_iff.2 (Snapshot.holds_cons.1 hheld).1
        obtain ⟨c, h1, hne⟩ := hend rfl
        exact .newline h0 (code?_eq_some_iff.2 h1) hne
    | paragraph =>
        obtain ⟨h0, h1⟩ := Snapshot.holds_cons.1 hheld
        exact .paragraph (code?_eq_some_iff.2 h0)
          (code?_eq_some_iff.2 (Snapshot.holds_cons.1 h1).1)
    | ink c =>
        obtain ⟨h0, h1⟩ := Snapshot.holds_cons.1 hheld
        exact .ink (code?_eq_some_iff.2 h0) (code?_eq_some_iff.2 (Snapshot.holds_cons.1 h1).1)
    | paper c =>
        obtain ⟨h0, h1⟩ := Snapshot.holds_cons.1 hheld
        exact .paper (code?_eq_some_iff.2 h0) (code?_eq_some_iff.2 (Snapshot.holds_cons.1 h1).1)
    | control c =>
        obtain ⟨hlt, hn, hi, hp, he⟩ : c < 32 ∧ c ≠ newlineCode ∧ c ≠ inkCode ∧ c ≠ paperCode ∧
          c ≠ endCode := ht
        have h0 : m.code? p = some c := code?_eq_some_iff.2 (Snapshot.holds_cons.1 hheld).1
        exact .control h0 hlt hn hi hp he

/-- A token is read where it stands, and nowhere else. -/
theorem tokenAt_eq_record_iff_spans {t : Token} {k : Nat} :
    (tokenAt m part p).result = .ok (.record t k) ↔ t.Spans m p (p + (k + 1)) := by
  rw [tokenAt_eq_record_iff, Token.spans_iff, Nat.add_left_cancel_iff]

/-- A token that stands somewhere is read there. -/
theorem Token.Spans.tokenAt (part : Section) {t : Token} (h : t.Spans m p q) :
    ∃ k, q = p + (k + 1) ∧ (Text.tokenAt m part p).result = .ok (.record t k) := by
  have hpos : ∃ k, t.codes.length = k + 1 := by
    cases t <;> exact ⟨_, rfl⟩
  obtain ⟨k, hk⟩ := hpos
  obtain rfl : q = p + (k + 1) := hk ▸ (Token.spans_iff.1 h).2.1
  exact ⟨k, rfl, tokenAt_eq_record_iff_spans.2 h⟩

/-- A token is at least one byte, and all of it is inside the snapshot. -/
theorem Token.Spans.inside {t : Token} (h : t.Spans m p q) : p < q ∧ q ≤ m.size := by
  obtain ⟨k, rfl, hs⟩ := h.tokenAt .messages
  exact ⟨by omega, tokenAt_inside hs⟩

/-! ## One text -/

/-- A text stands where a walk passes its tokens and gets to an end code. -/
theorem standsAt_iff {l : List Token} :
    StandsAt m p l next ↔
      ∃ q, (tokens m part).Passes p l q ∧ m.get? q = some (255 - endCode) ∧
        next = q + 1 := by
  constructor
  · intro h
    induction h with
    | nil hend => exact ⟨_, .nil, code?_eq_some_iff.1 hend, rfl⟩
    | cons ht _ ih =>
        obtain ⟨q, hpass, hend, rfl⟩ := ih
        obtain ⟨k, rfl, hs⟩ := ht.tokenAt part
        exact ⟨q, .cons hs hpass, hend, rfl⟩
  · rintro ⟨q, hpass, hend, rfl⟩
    induction hpass with
    | nil => exact .nil (code?_eq_some_iff.2 hend)
    | cons hs _ ih => exact .cons (tokenAt_eq_record_iff_spans.1 hs) (ih hend)

/-- A text is read exactly where it stands. -/
theorem read_eq_ok_iff_standsAt {text : String} :
    (read m part p).result = .ok (text, next) ↔ ∃ l, StandsAt m p l next ∧ text = render l := by
  rw [read_eq_ok_iff]
  constructor
  · rintro ⟨l, q, hpass, hend, hnext, htext⟩
    exact ⟨l, standsAt_iff.2 ⟨q, hpass, hend, hnext⟩, htext⟩
  · rintro ⟨l, hl, htext⟩
    obtain ⟨q, hpass, hend, hnext⟩ := standsAt_iff.1 hl
    exact ⟨l, q, hpass, hend, hnext, htext⟩

/-- A text ends inside the snapshot, behind its end code. -/
theorem StandsAt.inside {l : List Token} (h : StandsAt m p l next) :
    p < next ∧ next ≤ m.size ∧ m.code? (next - 1) = some endCode := by
  induction h with
  | nil hend => exact ⟨Nat.lt_succ_self _, lt_size_of_code? hend, hend⟩
  | cons ht _ ih => exact ⟨Nat.lt_trans ht.inside.1 ih.1, ih.2⟩

/-- No two tokens stand at one place. -/
theorem Token.Spans.unique {t u : Token} {r : Nat} (ht : t.Spans m p q) (hu : u.Spans m p r) :
    t = u ∧ q = r := by
  obtain ⟨k, rfl, hs⟩ := ht.tokenAt .messages
  obtain ⟨j, rfl, hs'⟩ := hu.tokenAt .messages
  rw [hs] at hs'
  cases hs'
  exact ⟨rfl, rfl⟩

/-- No token stands where a text ends. -/
theorem Token.Spans.not_end {t : Token} (ht : t.Spans m p q) : m.code? p ≠ some endCode := by
  intro hend
  obtain ⟨k, -, hs⟩ := ht.tokenAt .messages
  rw [tokenAt_eq_stop_iff.2 ⟨rfl, code?_eq_some_iff.1 hend⟩] at hs
  cases hs

/-- No two texts stand at one place. -/
theorem StandsAt.unique {l l' : List Token} {next' : Nat} (h : StandsAt m p l next)
    (h' : StandsAt m p l' next') : l = l' ∧ next = next' := by
  induction h generalizing l' with
  | nil hend =>
      cases h' with
      | nil => exact ⟨rfl, rfl⟩
      | cons ht _ => exact absurd hend ht.not_end
  | cons ht _ ih =>
      cases h' with
      | nil hend => exact absurd hend ht.not_end
      | cons ht' h' =>
          obtain ⟨rfl, rfl⟩ := ht.unique ht'
          obtain ⟨rfl, rfl⟩ := ih h'
          exact ⟨rfl, rfl⟩

/-- Where a text cannot be read, the first missing byte is to blame. -/
theorem read_fault (h : (read m part p).result = .error f) :
    f = .malformed part (max p m.size) :=
  Snapshot.walk_fault (r := tokens m part) (fun _ _ _ h => tokenAt_inside h)
    (fun _ _ h => tokenAt_fault h) (Reading.error_of_bind (fun _ => ⟨_, rfl⟩) h)

/-! ## Packed texts -/

/-- Packed texts are read exactly where they stand. -/
theorem packs_iff_packedAt {index : Nat} {texts : List String} :
    Packs (fun _ p => read m part p) index p texts next ↔
      ∃ ls, PackedAt m p ls next ∧ texts = ls.map render := by
  constructor
  · intro h
    induction h with
    | nil => exact ⟨[], .nil, rfl⟩
    | cons ha _ ih =>
        obtain ⟨l, hl, rfl⟩ := read_eq_ok_iff_standsAt.1 ha
        obtain ⟨ls, hls, rfl⟩ := ih
        exact ⟨l :: ls, .cons hl hls, rfl⟩
  · rintro ⟨ls, hls, rfl⟩
    induction hls generalizing index with
    | nil => exact .nil
    | cons hl _ ih => exact .cons (read_eq_ok_iff_standsAt.2 ⟨_, hl, rfl⟩) ih

theorem readAll_eq_ok_iff_packedAt {count : Nat} {texts : List String} :
    (readAll m part p count).result = .ok texts ↔
      ∃ ls next, ls.length = count ∧ PackedAt m p ls next ∧ texts = ls.map render := by
  rw [readAll_eq_ok_iff]
  constructor
  · rintro ⟨hlen, next, hpacks⟩
    obtain ⟨ls, hls, rfl⟩ := packs_iff_packedAt.1 hpacks
    exact ⟨ls, next, by simpa using hlen, hls, rfl⟩
  · rintro ⟨ls, next, hlen, hls, rfl⟩
    exact ⟨by simpa using hlen, next, packs_iff_packedAt.2 ⟨ls, hls, rfl⟩⟩

/-- The first of packed texts are packed. -/
theorem PackedAt.take {ls : List (List Token)} (h : PackedAt m p ls next) (j : Nat) :
    ∃ mid, PackedAt m p (ls.take j) mid := by
  induction h generalizing j with
  | nil => exact ⟨_, by simpa using .nil⟩
  | cons hl _ ih =>
      cases j with
      | zero => exact ⟨_, .nil⟩
      | succ j =>
          obtain ⟨mid, hmid⟩ := ih j
          exact ⟨mid, .cons hl hmid⟩

theorem readAll_fault {count : Nat} (h : (readAll m part p count).result = .error f) :
    f = .malformed part (max p m.size) := by
  refine Snapshot.packed_fault ?_ (fun _ _ _ h => read_fault h)
    (Reading.error_of_bind (fun _ => ⟨_, rfl⟩) h)
  intro index p text next h
  obtain ⟨l, hl, -⟩ := read_eq_ok_iff_standsAt.1 h
  exact ⟨hl.inside.1, hl.inside.2.1⟩

/-! ## Reading by the grammar -/

/-- What reading texts at `p` comes to, told by the grammar alone. -/
structure ReadsByGrammar (m : Snapshot) (part : Section) (p : Nat) : Prop where
  /-- A text is read where its tokens stand with an end code behind them. -/
  text : ∀ text next, (read m part p).result = .ok (text, next) ↔
    ∃ l, StandsAt m p l next ∧ text = render l
  /-- The cursor behind it is the place behind that end code. -/
  cursor : ∀ l next, StandsAt m p l next → p < next ∧ next ≤ m.size ∧
    m.code? (next - 1) = some endCode
  /-- The codes at a place are tokens in one way only. -/
  unique : ∀ l next l' next', StandsAt m p l next → StandsAt m p l' next' →
    l = l' ∧ next = next'
  /-- Where no text stands, the first missing byte is at fault. -/
  fault : ∀ f, (read m part p).result = .error f ↔
    f = .malformed part (max p m.size) ∧ ∀ l next, ¬ StandsAt m p l next
  /-- Packed texts are read where they stand, each behind the one before. -/
  texts : ∀ count texts, (readAll m part p count).result = .ok texts ↔
    ∃ ls next, ls.length = count ∧ PackedAt m p ls next ∧ texts = ls.map render
  /-- As many are read as were asked for, and fewer are the first of them. -/
  first : ∀ count texts, (readAll m part p count).result = .ok texts →
    texts.length = count ∧ ∀ j ≤ count, (readAll m part p j).result = .ok (texts.take j)
  /-- No text is had without reading anything. -/
  none : readAll m part p 0 = ⟨.ok [], [.textsDecoded part 0 p p], 0⟩
  /-- Where they do not stand, the first missing byte is at fault. -/
  faults : ∀ count f, (readAll m part p count).result = .error f ↔
    f = .malformed part (max p m.size) ∧
      ∀ ls next, ls.length = count → ¬ PackedAt m p ls next

/-- Texts are read by the grammar, from every place of every snapshot. -/
theorem read_grammar (m : Snapshot) (part : Section) (p : Nat) : ReadsByGrammar m part p := by
  refine ⟨?text, ?cursor, ?unique, ?fault, ?texts, ?first, ?none, ?faults⟩
  case text => exact fun text next => read_eq_ok_iff_standsAt
  case cursor => exact fun l next h => h.inside
  case unique => exact fun l next l' next' h h' => h.unique h'
  case fault =>
    intro f
    constructor
    · intro h
      refine ⟨read_fault h, fun l next hl => ?_⟩
      rw [read_eq_ok_iff_standsAt.2 ⟨l, hl, rfl⟩] at h
      cases h
    · rintro ⟨rfl, hnone⟩
      cases hr : (read m part p).result with
      | error g => rw [read_fault hr]
      | ok out =>
          obtain ⟨l, hl, -⟩ := read_eq_ok_iff_standsAt.1 hr
          exact absurd hl (hnone l out.2)
  case texts => exact fun count texts => readAll_eq_ok_iff_packedAt
  case first =>
    intro count texts h
    obtain ⟨ls, next, rfl, hls, rfl⟩ := readAll_eq_ok_iff_packedAt.1 h
    refine ⟨List.length_map _, fun j hj => ?_⟩
    obtain ⟨mid, hmid⟩ := hls.take j
    refine readAll_eq_ok_iff_packedAt.2 ⟨ls.take j, mid, ?_, hmid, List.map_take.symm⟩
    rw [List.length_take, Nat.min_eq_left hj]
  case none => rfl
  case faults =>
    intro count f
    constructor
    · intro h
      refine ⟨readAll_fault h, fun ls next hlen hls => ?_⟩
      rw [readAll_eq_ok_iff_packedAt.2 ⟨ls, next, hlen, hls, rfl⟩] at h
      cases h
    · rintro ⟨rfl, hnone⟩
      cases hr : (readAll m part p count).result with
      | error g => rw [readAll_fault hr]
      | ok texts =>
          obtain ⟨ls, next, hlen, hls, -⟩ := readAll_eq_ok_iff_packedAt.1 hr
          exact absurd hls (hnone ls next hlen)

end Text
end Adventure
