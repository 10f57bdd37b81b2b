/-
# Bytes behind a snapshot

`Reading.Extends n r r'` compares a reading of a snapshot of `n` bytes with
the same reading of a longer one.  What has been read stays: a reading that
succeeds is the same.  What has failed may have failed for want of bytes, and
then it failed at `n` or behind it; otherwise the longer snapshot fails in
the same way.  A fault of a section leaves a log that the longer snapshot
goes on with.

The relation is kept by composing, walking and packing, and so each reader
has it as soon as its reads do.  The main statement is `decode_append`.
-/
import Adventure.Database.Decode
import Adventure.Proofs.Decode

namespace Adventure

/-- A fault that more bytes behind the first `n` might have prevented. -/
def Fault.Behind (n : Nat) (f : Fault) : Prop :=
  (∃ start, f = .signatureNotFound start) ∨ ∃ part offset, f = .malformed part offset ∧ n ≤ offset

/-! ## The relation -/

/-- `r'` is what `r` becomes when bytes are put behind the first `n`. -/
structure Reading.Extends {α : Type} (n : Nat) (r r' : Reading α) : Prop where
  ok : ∀ a, r.result = .ok a → r' = r
  error : ∀ f, r.result = .error f → r'.result = .error f ∨ f.Behind n
  events : ∀ part offset, r.result = .error (.malformed part offset) → r.events <+: r'.events

namespace Reading

variable {α β : Type} {n : Nat}

theorem Extends.refl (r : Reading α) : Extends n r r where
  ok := fun _ _ => rfl
  error := fun _ h => .inl h
  events := fun _ _ _ => List.prefix_rfl

/-- What came before does not matter. -/
theorem Extends.after {r r' : Reading α} (h : Extends n r r') (es : List Event) (k : Nat) :
    Extends n (r.after es k) (r'.after es k) where
  ok := by
    intro a ha
    rw [h.ok a ha]
  error := fun f hf => h.error f hf
  events := by
    intro part offset hf
    exact (List.prefix_append_right_inj es).2 (h.events part offset hf)

/-- The log of a composed reading begins with the log of its first part. -/
theorem events_isPrefix_bind (r : Reading α) (next : α → Reading β) :
    r.events <+: (r >>= next).events := by
  obtain ⟨result, events, reach⟩ := r
  cases result with
  | error f => exact List.prefix_rfl
  | ok a => exact List.prefix_append events _

theorem Extends.bind {r r' : Reading α} {next next' : α → Reading β} (h : Extends n r r')
    (hnext : ∀ a, Extends n (next a) (next' a)) : Extends n (r >>= next) (r' >>= next') := by
  obtain ⟨result, events, reach⟩ := r
  cases result with
  | ok a =>
      rw [h.ok a rfl]
      exact (hnext a).after events reach
  | error f =>
      refine ⟨?_, ?_, ?_⟩
      · intro b hb
        cases hb
      · intro g hg
        cases hg
        rcases h.error f rfl with hr | hr
        · refine .inl ?_
          rw [result_bind, hr]
          rfl
        · exact .inr hr
      · intro part offset hf
        cases hf
        exact (h.events part offset rfl).trans (events_isPrefix_bind r' next')

end Reading

open Reading (Extends)

/-! ## Walks and packed tables -/

namespace Records

variable {α : Type} {n : Nat} {r r' : Records α}

/-- The log of a walk begins with the log of its first step. -/
theorem events_isPrefix_walkAfter (r : Records α) (read : List α) (p : Nat) :
    (r.step p).events <+: (r.walkAfter read p).events := by
  match h : r.step p with
  | ⟨.ok (.record a k), events, far⟩ =>
      rw [r.walkAfter_record h]
      exact (List.prefix_append events _).trans (List.prefix_append _ _)
  | ⟨.ok (.stop w), events, far⟩ =>
      have same : (r.walkAfter read p).events = events := by rw [r.walkAfter_stop h]
      exact same ▸ List.prefix_rfl
  | ⟨.error f, events, far⟩ =>
      have same : (r.walkAfter read p).events = events := by rw [r.walkAfter_error h]
      exact same ▸ List.prefix_rfl

/-- A walk extends when its steps do and its records are noted alike. -/
theorem extends_walkAfter (step : ∀ p, Extends n (r.step p) (r'.step p)) (note : r'.note = r.note)
    (read : List α) (p : Nat) : Extends n (r.walkAfter read p) (r'.walkAfter read p) := by
  match h : r.step p with
  | ⟨.ok (.record a k), events, far⟩ =>
      have inside := r.inside p a k (by rw [h])
      have h' : r'.step p = ⟨.ok (.record a k), events, far⟩ :=
        ((step p).ok (.record a k) (by rw [h])).trans h
      rw [r.walkAfter_record h, r'.walkAfter_record h', note]
      exact (extends_walkAfter step note (a :: read) (p + (k + 1))).after _ _
  | ⟨.ok (.stop w), events, far⟩ =>
      have h' : r'.step p = ⟨.ok (.stop w), events, far⟩ :=
        ((step p).ok (.stop w) (by rw [h])).trans h
      rw [r.walkAfter_stop h, r'.walkAfter_stop h']
      exact .refl _
  | ⟨.error f, events, far⟩ =>
      rw [r.walkAfter_error h]
      refine ⟨?_, ?_, ?_⟩
      · intro a ha
        cases ha
      · intro g hg
        cases hg
        rcases (step p).error f (by rw [h]) with hr | hr
        · exact .inl (by rw [walkAfter_error r' (by rw [← hr])])
        · exact .inr hr
      · intro part offset hf
        cases hf
        have hstep := (step p).events part offset (by rw [h])
        rw [h] at hstep
        exact hstep.trans (events_isPrefix_walkAfter r' read p)
termination_by r.size - p

theorem extends_walk (r r' : Records α) (step : ∀ p, Extends n (r.step p) (r'.step p))
    (note : r'.note = r.note) (p : Nat) : Extends n (r.walk p) (r'.walk p) :=
  extends_walkAfter step note [] p

end Records

theorem extends_packedAfter {α : Type} {n : Nat} {item item' : (index p : Nat) → Reading (α × Nat)}
    (h : ∀ index p, Extends n (item index p) (item' index p)) (read : List α)
    (index left p : Nat) :
    Extends n (packedAfter item read index left p) (packedAfter item' read index left p) := by
  induction left generalizing read index p with
  | zero =>
      rw [packedAfter_zero, packedAfter_zero]
      exact .refl _
  | succ left ih =>
      rw [packedAfter_succ, packedAfter_succ]
      exact (h index p).bind fun out => ih (out.1 :: read) (index + 1) out.2

theorem extends_packed {α : Type} {n : Nat} {item item' : (index p : Nat) → Reading (α × Nat)}
    (h : ∀ index p, Extends n (item index p) (item' index p)) (count p : Nat) :
    Extends n (packed item count p) (packed item' count p) :=
  extends_packedAfter h [] 0 count p

/-! ## Reads -/

namespace Snapshot

/-- The snapshot with bytes put behind it. -/
def append (m : Snapshot) (x : Array UInt8) : Snapshot :=
  ⟨m.bytes ++ x⟩

variable {m : Snapshot} {x : Array UInt8} {part : Section}

theorem size_append : (m.append x).size = m.size + x.size := by
  simp [size, append]

theorem get?_append {a : Nat} (h : a < m.size) : (m.append x).get? a = m.get? a :=
  Array.getElem?_append_left h

/-- A fault of a section at a byte behind the snapshot may go away. -/
theorem extends_malformed {α : Type} {offset reach : Nat} (h : m.size ≤ offset) (r' : Reading α) :
    Extends m.size ⟨.error (.malformed part offset), [], reach⟩ r' where
  ok := by
    intro a ha
    cases ha
  error := by
    intro f hf
    cases hf
    exact .inr (.inr ⟨part, offset, rfl, h⟩)
  events := fun _ _ _ => List.nil_prefix

theorem extends_byteAt (a k : Nat) :
    Extends m.size (m.byteAt part a k) ((m.append x).byteAt part a k) := by
  by_cases h : a + k < m.size
  · rw [byteAt, byteAt, get?_append h]
    exact .refl _
  · have hnone : m.get? (a + k) = none := get?_eq_none_iff.2 (Nat.le_of_not_lt h)
    have hm : m.byteAt part a k = ⟨.error (.malformed part (a + k)), [], a + k⟩ := by
      rw [byteAt, hnone]
    rw [hm]
    exact extends_malformed (Nat.le_of_not_lt h) _

theorem extends_wordAt (a k : Nat) :
    Extends m.size (m.wordAt part a k) ((m.append x).wordAt part a k) := by
  refine (extends_byteAt a k).bind fun low => ?_
  exact (extends_byteAt (a + k) 1).bind fun high => .refl _

theorem extends_slice (a len : Nat) :
    Extends m.size (m.slice part a len) ((m.append x).slice part a len) := by
  unfold slice
  by_cases hlimit : a + len < addressLimit
  · by_cases hsize : a + len ≤ m.size
    · have hsize' : a + len ≤ (m.append x).size := by
        rw [size_append]
        exact Nat.le_add_right_of_le hsize
      have same : (m.append x).bytes.extract a (a + len) = m.bytes.extract a (a + len) := by
        have hstop : a + len - m.bytes.size = 0 := Nat.sub_eq_zero_of_le hsize
        rw [append, Array.extract_append, hstop, Array.extract_zero, Array.append_empty]
      simp only [hlimit, hsize, hsize', if_true, same]
      exact .refl _
    · simp only [hlimit, hsize, if_true, if_false]
      exact extends_malformed (by omega) _
  · simp only [hlimit, if_false]
    exact .refl _

end Snapshot

variable {m : Snapshot} {x : Array UInt8} {part : Section}

open Snapshot (extends_byteAt extends_wordAt extends_slice)

/-! ## The marker and the header -/

namespace Signature

/-- A marker that is found is found at the same place and after the same tries. -/
theorem search_append {p reach anchor far : Nat} (h : search m p reach = (some anchor, far)) :
    search (m.append x) p reach = (some anchor, far) := by
  fun_induction search m p reach with
  | case1 p reach hp far' hspan hmarks =>
      obtain ⟨rfl, hfar⟩ : p = anchor ∧ far' = far := by simpa using h
      have hmarks' : marks (m.append x) p = true := by
        rw [marks_iff] at hmarks ⊢
        intro i hi hi5
        rw [← hmarks i hi hi5]
        exact Snapshot.get?_append (Snapshot.lt_size_of_get? (hmarks i hi hi5))
      have hp' : p < (m.append x).size := by
        rw [Snapshot.size_append]
        omega
      have hspan' : p + span < (m.append x).size := by
        rw [Snapshot.size_append]
        omega
      rw [search, if_pos hp', if_pos hspan', if_pos hmarks', ← hfar]
  | case2 p reach hp far' hspan hmarks ih =>
      have hmarks' : ¬ marks (m.append x) p = true := by
        intro hmarked
        refine hmarks ?_
        rw [marks_iff] at hmarked ⊢
        intro i hi hi5
        rw [← hmarked i hi hi5]
        refine (Snapshot.get?_append ?_).symm
        simp only [span] at hspan
        omega
      have hp' : p < (m.append x).size := by
        rw [Snapshot.size_append]
        omega
      have hspan' : p + span < (m.append x).size := by
        rw [Snapshot.size_append]
        omega
      rw [search, if_pos hp', if_pos hspan', if_neg hmarks']
      exact ih h
  | case3 p reach hp far' hspan => cases h
  | case4 p reach hp => cases h

theorem extends_locate (start : Nat) :
    Extends m.size (locate m start) (locate (m.append x) start) := by
  match h : search m start 0 with
  | (some anchor, far) =>
      rw [locate, locate, h, search_append h]
      exact .refl _
  | (none, far) =>
      rw [locate, h]
      refine ⟨?_, ?_, ?_⟩
      · intro a ha
        cases ha
      · intro f hf
        cases hf
        exact .inr (.inl ⟨start, rfl⟩)
      · intro part offset hf
        cases hf

end Signature

namespace Header

theorem extends_throughCell (base n : Nat) :
    Extends m.size (throughCell m base n part) (throughCell (m.append x) base n part) :=
  (extends_wordAt base (4 + 2 * n)).bind fun cell => extends_wordAt cell 0

theorem extends_resolve (anchor : Nat) :
    Extends m.size (resolve m anchor) (resolve (m.append x) anchor) := by
  refine (extends_byteAt anchor distance).bind fun carried => ?_
  refine (extends_byteAt _ 1).bind fun objectCount => ?_
  refine (extends_byteAt _ 2).bind fun locationCount => ?_
  refine (extends_byteAt _ 3).bind fun messageCount => ?_
  refine (extends_wordAt _ _).bind fun responses => ?_
  refine (extends_wordAt _ _).bind fun processes => ?_
  refine (extends_throughCell _ 2).bind fun objects => ?_
  refine (extends_throughCell _ 3).bind fun locations => ?_
  refine (extends_throughCell _ 4).bind fun messages => ?_
  refine (extends_throughCell _ 5).bind fun connections => ?_
  refine (extends_wordAt _ _).bind fun vocabulary => ?_
  refine (extends_wordAt _ _).bind fun positions => ?_
  exact .refl _

end Header

/-! ## The tables -/

namespace Rules

variable {arguments : ArgumentTable}

theorem extends_conditionAt (p : Nat) :
    Extends m.size (conditionAt m part p) (conditionAt (m.append x) part p) := by
  refine (extends_byteAt p 0).bind fun opcode => ?_
  split
  · exact .refl _
  refine (extends_byteAt p 1).bind fun param1 => ?_
  split
  · exact .refl _
  exact (extends_byteAt p 2).bind fun param2 => .refl _

theorem extends_parameterAt (p count k : Nat) :
    Extends m.size (parameterAt m part p count k) (parameterAt (m.append x) part p count k) := by
  unfold parameterAt
  split
  · exact (extends_byteAt p k).bind fun b => .refl _
  · exact .refl _

theorem extends_actionAt (p : Nat) :
    Extends m.size (actionAt m part arguments p) (actionAt (m.append x) part arguments p) := by
  refine (extends_byteAt p 0).bind fun opcode => ?_
  split
  · exact .refl _
  refine (extends_parameterAt p _ 1).bind fun param1 => ?_
  exact (extends_parameterAt p _ 2).bind fun param2 => .refl _

theorem extends_readBlock (p : Nat) :
    Extends m.size (readBlock m part arguments p) (readBlock (m.append x) part arguments p) := by
  have conditions : ∀ p, Extends m.size ((Rules.conditions m part).walk p)
      ((Rules.conditions (m.append x) part).walk p) :=
    Records.extends_walk (Rules.conditions m part) (Rules.conditions (m.append x) part)
      extends_conditionAt rfl
  have actions : ∀ p, Extends m.size ((Rules.actions m part arguments).walk p)
      ((Rules.actions (m.append x) part arguments).walk p) :=
    Records.extends_walk (Rules.actions m part arguments)
      (Rules.actions (m.append x) part arguments) extends_actionAt rfl
  refine (conditions p).bind fun cs => ?_
  exact ((actions cs.2).bind fun as => .refl _).bind fun as => .refl _

theorem extends_entryAt {kind : CommandKind} (p : Nat) :
    Extends m.size (entryAt m kind arguments p) (entryAt (m.append x) kind arguments p) := by
  refine (extends_byteAt p 0).bind fun first => ?_
  split
  · exact .refl _
  have words : Extends m.size (wordsAt m kind p first) (wordsAt (m.append x) kind p first) := by
    cases kind with
    | response => exact (extends_byteAt p 1).bind fun second => .refl _
    | process => exact .refl _
  refine words.bind fun words => ?_
  refine (extends_wordAt p 2).bind fun block => ?_
  exact (extends_readBlock block).bind fun body => .refl _

theorem extends_readCommands {kind : CommandKind} (start : Nat) :
    Extends m.size (readCommands m kind arguments start)
      (readCommands (m.append x) kind arguments start) := by
  have entries : Extends m.size ((Rules.entries m kind arguments).walk start)
      ((Rules.entries (m.append x) kind arguments).walk start) :=
    Records.extends_walk (Rules.entries m kind arguments)
      (Rules.entries (m.append x) kind arguments) extends_entryAt rfl start
  exact entries.bind fun list => .refl _

end Rules

namespace Text

theorem extends_codeAt (p k : Nat) :
    Extends m.size (codeAt m part p k) (codeAt (m.append x) part p k) :=
  (extends_byteAt p k).bind fun _ => .refl _

theorem extends_tokenAt (p : Nat) :
    Extends m.size (tokenAt m part p) (tokenAt (m.append x) part p) := by
  refine (extends_byteAt p 0).bind fun stored => ?_
  unfold tokenFrom
  split
  · exact .refl _
  split
  · exact .refl _
  split
  · exact (extends_codeAt p 1).bind fun next => .refl _
  split
  · exact (extends_codeAt p 1).bind fun colour => .refl _
  split
  · exact (extends_codeAt p 1).bind fun colour => .refl _
  · exact .refl _

theorem extends_readAll (start count : Nat) :
    Extends m.size (readAll m part start count) (readAll (m.append x) part start count) := by
  have read : ∀ p, Extends m.size (Text.read m part p) (Text.read (m.append x) part p) := by
    intro p
    have tokens : Extends m.size ((Text.tokens m part).walk p)
        ((Text.tokens (m.append x) part).walk p) :=
      Records.extends_walk (Text.tokens m part) (Text.tokens (m.append x) part)
        extends_tokenAt rfl p
    exact tokens.bind fun out => .refl _
  exact (extends_packed (fun _ p => read p) count start).bind fun texts => .refl _

end Text

namespace Exits

theorem extends_pairAt (p : Nat) : Extends m.size (pairAt m p) (pairAt (m.append x) p) := by
  refine (extends_byteAt p 0).bind fun direction => ?_
  split
  · exact .refl _
  · exact (extends_byteAt p 1).bind fun destination => .refl _

theorem extends_readAll (start count : Nat) :
    Extends m.size (readAll m start count) (readAll (m.append x) start count) := by
  have read : ∀ index p, Extends m.size (Exits.read m index p)
      (Exits.read (m.append x) index p) := by
    intro index p
    have pairs : Extends m.size ((Exits.pairs m).walk p) ((Exits.pairs (m.append x)).walk p) :=
      Records.extends_walk (Exits.pairs m) (Exits.pairs (m.append x)) extends_pairAt rfl p
    exact pairs.bind fun out => .refl _
  exact (extends_packed read count start).bind fun rows => .refl _

end Exits

namespace Vocabulary

theorem extends_wordAt (p : Nat) :
    Extends m.size (Vocabulary.wordAt m p) (Vocabulary.wordAt (m.append x) p) := by
  refine (extends_byteAt p wordLength).bind fun token => ?_
  split
  · exact .refl _
  · exact (extends_slice p wordLength).bind fun stored => .refl _

theorem extends_read (start : Nat) : Extends m.size (read m start) (read (m.append x) start) := by
  have words : Extends m.size ((Vocabulary.words m).walk start)
      ((Vocabulary.words (m.append x)).walk start) :=
    Records.extends_walk (Vocabulary.words m) (Vocabulary.words (m.append x)) extends_wordAt
      rfl start
  exact words.bind fun list => .refl _

end Vocabulary

/-! ## The decode -/

namespace Database

theorem extends_readTables {arguments : ArgumentTable} (h : Header) :
    Extends m.size (readTables m arguments h) (readTables (m.append x) arguments h) := by
  refine (Rules.extends_readCommands h.responses).bind fun responses => ?_
  refine (Rules.extends_readCommands h.processes).bind fun processes => ?_
  refine (Text.extends_readAll h.objects _).bind fun objects => ?_
  refine (Text.extends_readAll h.locations _).bind fun locations => ?_
  refine (Text.extends_readAll h.messages _).bind fun messages => ?_
  refine (Exits.extends_readAll h.connections _).bind fun connections => ?_
  refine (Vocabulary.extends_read h.vocabulary).bind fun vocabulary => ?_
  refine (extends_slice h.positions _).bind fun positions => ?_
  exact .refl _

theorem extends_decode (o : Options) : Extends m.size (decode m o) (decode (m.append x) o) := by
  refine (Extends.refl _).bind fun version => ?_
  refine (Signature.extends_locate o.searchStart).bind fun anchor => ?_
  refine (Header.extends_resolve anchor).bind fun header => ?_
  refine (Extends.refl _).bind fun _ => ?_
  exact (extends_readTables header).bind fun database => .refl _

/-- Bytes behind a snapshot change nothing about a database that is found
without them.  If it is only found with them, then without them the marker is
missing or a section leaves the snapshot; another database is never found. -/
theorem decode_append (m : Snapshot) (x : Array UInt8) (o : Options) :
    (∀ d, (decode m o).result = .ok d → (decode (m.append x) o).result = .ok d) ∧
      ∀ d, (decode (m.append x) o).result = .ok d →
        (decode m o).result = .ok d ∨
        (∃ start, (decode m o).result = .error (.signatureNotFound start)) ∨
        ∃ part offset, (decode m o).result = .error (.malformed part offset) ∧
          m.size ≤ offset := by
  have extension : Extends m.size (decode m o) (decode (m.append x) o) := extends_decode o
  refine ⟨?_, ?_⟩
  · intro d hd
    rw [extension.ok d hd]
    exact hd
  · intro d hd
    cases hm : (decode m o).result with
    | ok d' =>
        rw [extension.ok d' hm, hm] at hd
        exact .inl hd
    | error f =>
        rcases extension.error f hm with hf | ⟨start, rfl⟩ | ⟨part, offset, rfl, hoffset⟩
        · rw [hf] at hd
          cases hd
        · exact .inr (.inl ⟨start, rfl⟩)
        · exact .inr (.inr ⟨part, offset, rfl, hoffset⟩)

end Database
end Adventure
