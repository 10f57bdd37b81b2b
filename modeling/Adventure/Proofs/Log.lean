/-
# The log of a decode

The log is what was reported, each event with its level and its wording.
`Event.Backed m o e` says what stands behind an event: the item that it
reports is in the snapshot from its first byte to its last, with the values
that the event gives.  A summary stands for every item of its table.

`Reading.Reports P r` holds when `P` holds of everything that `r` reports.
It is kept by composing, where the second part may use what the first one
came to; a walk needs it for its steps and for the records that it passes,
and a packed table for its items.

The main statement is `decode_log`.  A decode that is cut off has written the
beginning of what it would have written with more bytes, and one that is not
cut off has written all of it.  Nothing is written about an item that is not
there to its end.
-/
import Adventure.Proofs.Exits
import Adventure.Proofs.Extension
import Adventure.Proofs.Resolution
import Adventure.Proofs.Rules.Table
import Adventure.Proofs.Text.Grammar
import Adventure.Proofs.Vocabulary

namespace Adventure

/-- The records that a reading writes, in their order. -/
def Reading.log {α : Type} (r : Reading α) : List (Level × String) :=
  r.events.map fun e => (e.level, e.message)

/-! ## What stands behind an event -/

open Text (Token StandsAt PackedAt) in
/-- What an event reports is in the snapshot as a whole. -/
inductive Event.Backed (m : Snapshot) (o : Options) : Event → Prop where
  | signatureFound {anchor : Nat} :
      IsLeast {p | o.searchStart ≤ p ∧ Signature.Anchored m p} anchor →
      Backed m o (.signatureFound anchor)
  /-- That there is no marker is known when the whole snapshot has been searched. -/
  | signatureMissing : (∀ p, o.searchStart ≤ p → ¬ Signature.Anchored m p) →
      Backed m o (.signatureMissing o.searchStart m.size)
  | headerRead {h : Header} : Header.StandsBehind m h.anchor h → Backed m o (.headerRead h)
  | headerListed {h : Header} : Header.StandsBehind m h.anchor h → Backed m o (.headerListed h)
  | conditionRead {p : Nat} {c : Condition} : c.WellFormed → m.Holds p c.bytes →
      Backed m o (.conditionRead p c)
  /-- An entry is there when its block is, to the end of the actions. -/
  | commandRead {kind : CommandKind} {p block : Nat} {c : Command} :
      Rules.EntryStands m kind Version.v0.arguments p ⟨c, block⟩ →
      Backed m o (.commandRead kind p c.word1 c.word2 block c.conditions.length)
  | commandsRead {kind : CommandKind} {count start : Nat} :
      Rules.TableEnds m kind Version.v0.arguments start count →
      Backed m o (.commandsRead kind count start)
  | inkIgnored {colour : UInt8} {p : Nat} : (Token.ink colour).Spans m p (p + 2) →
      Charset.ink? colour = none → Backed m o (.inkIgnored colour (p + 1))
  | paperSkipped {colour : UInt8} {p : Nat} : (Token.paper colour).Spans m p (p + 2) →
      Backed m o (.paperSkipped colour (p + 1))
  | controlIgnored {code : UInt8} {p : Nat} : (Token.control code).Spans m p (p + 1) →
      Backed m o (.controlIgnored code p)
  | textDecoded {start next : Nat} {l : List Token} : StandsAt m start l next →
      Backed m o (.textDecoded start next (Text.render l))
  | textsDecoded {part : Section} {start next : Nat} {ls : List (List Token)} :
      PackedAt m start ls next → Backed m o (.textsDecoded part ls.length start next)
  /-- The row of a location is there, and so are those of the locations in front of it. -/
  | exitsRead {start e : Nat} {rows : List (List (UInt8 × UInt8))} {row : List (UInt8 × UInt8)} :
      Exits.RowsSpan m start (rows ++ [row]) e →
      Backed m o (.exitsRead rows.length (OrderedMap.ofList row).size)
  | connectionsRead {start e : Nat} {rows : List (List (UInt8 × UInt8))} :
      Exits.RowsSpan m start rows e → Backed m o (.connectionsRead rows.length start)
  | wordRead {p : Nat} {word : String} {token : UInt8} : Vocabulary.RecordAt m p (word, token) →
      Backed m o (.wordRead p word token)
  /-- The same word is there twice, and the later token is the one that is kept. -/
  | tokenReplaced {p q : Nat} {word : String} {previous token : UInt8} : q < p →
      Vocabulary.RecordAt m q (word, previous) → Vocabulary.RecordAt m p (word, token) →
      Backed m o (.tokenReplaced previous token)
  /-- The records are there, and behind them a token that ends the table. -/
  | vocabularyRead {start : Nat} {l : List (String × UInt8)} :
      (∀ k e, l[k]? = some e → Vocabulary.RecordAt m (Vocabulary.place start k) e) →
      Vocabulary.tokenOf m start l.length = some 0 →
      Backed m o (.vocabularyRead (OrderedMap.ofList l).size start)
  | databaseDecoded {d : Database} : (Database.decode m o).result = .ok d →
      Backed m o d.summary

/-! ## Composed readings -/

namespace Reading

variable {α β : Type} {P : Event → Prop}

/-- Everything that is reported satisfies `P`. -/
def Reports (P : Event → Prop) (r : Reading α) : Prop :=
  ∀ e ∈ r.events, P e

theorem reports_pure (a : α) : (pure a : Reading α).Reports P :=
  List.forall_mem_nil P

theorem reports_record {e : Event} (h : P e) : (record e).Reports P :=
  List.forall_mem_singleton.2 h

/-- The second part is read behind what the first part came to. -/
theorem Reports.bind {r : Reading α} {next : α → Reading β} (h : r.Reports P)
    (hnext : ∀ a, r.result = .ok a → (next a).Reports P) : (r >>= next).Reports P := by
  obtain ⟨result, events, reach⟩ := r
  cases result with
  | error f => exact h
  | ok a => exact List.forall_mem_append.2 ⟨h, hnext a rfl⟩

/-- Readings that end with an event. -/
theorem Reports.bind_record {r : Reading α} {e : α → Event} {b : α → β} (h : r.Reports P)
    (he : ∀ a, r.result = .ok a → P (e a)) :
    (r >>= fun a => record (e a) >>= fun _ => pure (b a)).Reports P :=
  h.bind fun a ha => (reports_record (he a ha)).bind fun _ _ => reports_pure _

end Reading

/-! ## Walks and packed tables -/

section Passages

variable {α : Type} {P : Event → Prop}

/-- A passage goes on over the record that it gets to. -/
theorem Records.Passes.concat {r : Records α} {p q : Nat} {l : List α} (h : r.Passes p l q) {a : α}
    {k : Nat} (hs : (r.step q).result = .ok (.record a k)) :
    r.Passes p (l ++ [a]) (q + (k + 1)) := by
  induction h with
  | nil => exact .cons hs .nil
  | cons h0 _ ih => exact .cons h0 (ih hs)

theorem Packs.concat {item : (index p : Nat) → Reading (α × Nat)} {index p q next : Nat}
    {l : List α} (h : Packs item index p l q) {a : α}
    (ha : (item (index + l.length) q).result = .ok (a, next)) :
    Packs item index p (l ++ [a]) next := by
  induction h with
  | nil => exact .cons ha .nil
  | cons h0 _ ih =>
      refine .cons h0 (ih ?_)
      rwa [Nat.add_right_comm]

/-- What a walk reports comes from its steps and from the records that it
passes, each noted behind those before it. -/
theorem Records.reports_walkAfter {r : Records α} {start : Nat}
    (step : ∀ p, (r.step p).Reports P)
    (note : ∀ l p a k, r.Passes start l p → (r.step p).result = .ok (.record a k) →
      ∀ e ∈ r.note l.reverse p a, P e)
    {read : List α} {p : Nat} (hpass : r.Passes start read.reverse p) :
    (r.walkAfter read p).Reports P := by
  have here := step p
  match h : r.step p with
  | ⟨.ok (.record a k), events, far⟩ =>
      have hs : (r.step p).result = .ok (.record a k) := by rw [h]
      have inside := r.inside p a k hs
      have behind : r.Passes start (a :: read).reverse (p + (k + 1)) := by
        rw [List.reverse_cons]
        exact hpass.concat hs
      have rest := reports_walkAfter step note behind
      have noted := note read.reverse p a k hpass hs
      rw [List.reverse_reverse] at noted
      rw [h] at here
      rw [r.walkAfter_record h]
      exact List.forall_mem_append.2 ⟨List.forall_mem_append.2 ⟨here, noted⟩, rest⟩
  | ⟨.ok (.stop w), events, far⟩ =>
      rw [h] at here
      rw [r.walkAfter_stop h]
      exact here
  | ⟨.error f, events, far⟩ =>
      rw [h] at here
      rw [r.walkAfter_error h]
      exact here
termination_by r.size - p

theorem Records.reports_walk {r : Records α} {start : Nat} (step : ∀ p, (r.step p).Reports P)
    (note : ∀ l p a k, r.Passes start l p → (r.step p).result = .ok (.record a k) →
      ∀ e ∈ r.note l.reverse p a, P e) : (r.walk start).Reports P :=
  reports_walkAfter step note .nil

/-- What a packed table reports comes from its items, each read behind those before it. -/
theorem reports_packedAfter {item : (index p : Nat) → Reading (α × Nat)} {start : Nat}
    (items : ∀ l p, Packs item 0 start l p → (item l.length p).Reports P) {read : List α}
    {left p : Nat} (hpacks : Packs item 0 start read.reverse p) :
    (packedAfter item read read.length left p).Reports P := by
  induction left generalizing read p with
  | zero =>
      rw [packedAfter_zero]
      exact List.forall_mem_nil P
  | succ left ih =>
      have here := items read.reverse p hpacks
      rw [List.length_reverse] at here
      rw [packedAfter_succ]
      refine here.bind fun out hout => ?_
      have behind : Packs item 0 start (out.1 :: read).reverse out.2 := by
        rw [List.reverse_cons]
        refine hpacks.concat ?_
        rwa [Nat.zero_add, List.length_reverse]
      exact ih behind

theorem reports_packed {item : (index p : Nat) → Reading (α × Nat)} {count start : Nat}
    (items : ∀ l p, Packs item 0 start l p → (item l.length p).Reports P) :
    (packed item count start).Reports P :=
  reports_packedAfter items .nil

end Passages

variable {m : Snapshot} {o : Options} {P : Event → Prop} {part : Section} {kind : CommandKind}

open Reading (Reports reports_pure reports_record)

/-! ## Reads -/

namespace Snapshot

/-- The bounded reads report nothing. -/
theorem reports_byteAt (a k : Nat) : (m.byteAt part a k).Reports P := by
  unfold byteAt
  split <;> exact List.forall_mem_nil P

theorem reports_wordAt (a k : Nat) : (m.wordAt part a k).Reports P :=
  (reports_byteAt a k).bind fun _ _ => (reports_byteAt (a + k) 1).bind fun _ _ => reports_pure _

theorem reports_slice (a len : Nat) : (m.slice part a len).Reports P := by
  unfold slice
  simp only
  split
  · split <;> exact List.forall_mem_nil P
  · exact List.forall_mem_nil P

end Snapshot

open Snapshot (reports_byteAt reports_wordAt reports_slice)

/-! ## The marker and the header -/

namespace Signature

theorem reports_locate : (locate m o.searchStart).Reports (Event.Backed m o) := by
  have spec := search_spec m o.searchStart 0
  unfold locate
  revert spec
  rcases search m o.searchStart 0 with ⟨_ | anchor, reach⟩
  · exact fun none => List.forall_mem_singleton.2 (.signatureMissing none)
  · exact fun least => List.forall_mem_singleton.2 (.signatureFound least)

end Signature

namespace Header

theorem reports_throughCell (base n : Nat) : (throughCell m base n part).Reports P :=
  (reports_wordAt base (4 + 2 * n)).bind fun cell _ => reports_wordAt cell 0

/-- The header is reported behind the last of its words. -/
theorem reports_resolve (anchor : Nat) : (resolve m anchor).Reports (Event.Backed m o) := by
  refine (reports_byteAt anchor distance).bind fun carried hcarried => ?_
  refine (reports_byteAt _ 1).bind fun objectCount hobjectCount => ?_
  refine (reports_byteAt _ 2).bind fun locationCount hlocationCount => ?_
  refine (reports_byteAt _ 3).bind fun messageCount hmessageCount => ?_
  refine (reports_wordAt _ _).bind fun responses hresponses => ?_
  refine (reports_wordAt _ _).bind fun processes hprocesses => ?_
  refine (reports_throughCell _ 2).bind fun objects hobjects => ?_
  refine (reports_throughCell _ 3).bind fun locations hlocations => ?_
  refine (reports_throughCell _ 4).bind fun messages hmessages => ?_
  refine (reports_throughCell _ 5).bind fun connections hconnections => ?_
  refine (reports_wordAt _ _).bind fun vocabulary hvocabulary => ?_
  refine (reports_wordAt _ _).bind fun positions hpositions => ?_
  refine (reports_record (.headerRead ?_)).bind fun _ _ => reports_pure _
  exact
    { carried := Snapshot.byteAt_eq_ok_iff.1 hcarried
      objectCount := Snapshot.byteAt_eq_ok_iff.1 hobjectCount
      locationCount := Snapshot.byteAt_eq_ok_iff.1 hlocationCount
      messageCount := Snapshot.byteAt_eq_ok_iff.1 hmessageCount
      responses := field_eq_ok_iff.1 hresponses
      processes := field_eq_ok_iff.1 hprocesses
      objects := throughCell_eq_ok_iff.1 hobjects
      locations := throughCell_eq_ok_iff.1 hlocations
      messages := throughCell_eq_ok_iff.1 hmessages
      connections := throughCell_eq_ok_iff.1 hconnections
      vocabulary := field_eq_ok_iff.1 hvocabulary
      positions := field_eq_ok_iff.1 hpositions
      anchor := rfl }

end Header

/-! ## The rule tables -/

namespace Rules

theorem reports_conditionAt (p : Nat) : (conditionAt m part p).Reports P := by
  refine (reports_byteAt p 0).bind fun opcode _ => ?_
  split
  · exact reports_pure _
  refine (reports_byteAt p 1).bind fun param1 _ => ?_
  split
  · exact reports_pure _
  · exact (reports_byteAt p 2).bind fun param2 _ => reports_pure _

theorem reports_parameterAt (p count k : Nat) : (parameterAt m part p count k).Reports P := by
  unfold parameterAt
  split
  · exact (reports_byteAt p k).bind fun b _ => reports_pure _
  · exact reports_pure _

theorem reports_actionAt (arguments : ArgumentTable) (p : Nat) :
    (actionAt m part arguments p).Reports P := by
  refine (reports_byteAt p 0).bind fun opcode _ => ?_
  split
  · exact reports_pure _
  refine (reports_parameterAt p _ 1).bind fun param1 _ => ?_
  exact (reports_parameterAt p _ 2).bind fun param2 _ => reports_pure _

/-- A block reports its conditions, and nothing about its actions. -/
theorem reports_readBlock (arguments : ArgumentTable) (p : Nat) :
    (readBlock m part arguments p).Reports (Event.Backed m o) := by
  have conditions : ((Rules.conditions m part).walk p).Reports (Event.Backed m o) := by
    refine Records.reports_walk reports_conditionAt fun _ q c k _ hs => ?_
    obtain ⟨hc, -, hheld⟩ := conditionAt_eq_record_iff.1 hs
    exact List.forall_mem_singleton.2 (.conditionRead hc hheld)
  have actions : ∀ q, ((Rules.actions m part arguments).walk q).Reports (Event.Backed m o) :=
    fun q => Records.reports_walk (reports_actionAt arguments) fun _ _ _ _ _ _ =>
      List.forall_mem_nil _
  refine conditions.bind fun out _ => ?_
  exact ((actions out.2).bind fun _ _ => reports_pure _).bind fun _ _ => reports_pure _

theorem reports_entryAt (arguments : ArgumentTable) (p : Nat) :
    (entryAt m kind arguments p).Reports (Event.Backed m o) := by
  refine (reports_byteAt p 0).bind fun first _ => ?_
  split
  · exact reports_pure _
  have words : (wordsAt m kind p first).Reports (Event.Backed m o) := by
    cases kind with
    | response => exact (reports_byteAt p 1).bind fun second _ => reports_pure _
    | process => exact reports_pure _
  refine words.bind fun words _ => ?_
  refine (reports_wordAt p 2).bind fun block _ => ?_
  exact (reports_readBlock arguments block).bind fun _ _ => reports_pure _

theorem reports_readCommands (start : Nat) :
    (readCommands m kind Version.v0.arguments start).Reports (Event.Backed m o) := by
  have entries : ((Rules.entries m kind Version.v0.arguments).walk start).Reports
      (Event.Backed m o) := by
    refine Records.reports_walk (reports_entryAt _) fun _ q e k _ hs => ?_
    exact List.forall_mem_singleton.2 (.commandRead (entryAt_eq_record_iff_stands.1 hs).1)
  refine entries.bind_record fun out hout => .commandsRead ?_
  -- The table is over behind the records that the walk passes.
  have table : (readCommands m kind Version.v0.arguments start).result =
      .ok (Chain.ofList? (out.1.map Entry.command)) := Reading.bind_eq_ok_iff.2 ⟨out, hout, rfl⟩
  have ends := (commands_of_readCommands table).1
  rwa [Chain.listOf_ofList?, List.length_map] at ends

end Rules

/-! ## Texts -/

namespace Text

theorem reports_codeAt (p k : Nat) : (codeAt m part p k).Reports P :=
  (reports_byteAt p k).bind fun _ _ => reports_pure _

theorem reports_tokenAt (p : Nat) : (tokenAt m part p).Reports P := by
  refine (reports_byteAt p 0).bind fun stored _ => ?_
  unfold tokenFrom
  split
  · exact reports_pure _
  split
  · exact reports_pure _
  split
  · exact (reports_codeAt p 1).bind fun next _ => reports_pure _
  split
  · exact (reports_codeAt p 1).bind fun colour _ => reports_pure _
  split
  · exact (reports_codeAt p 1).bind fun colour _ => reports_pure _
  · exact reports_pure _

/-- A code is reported to have no meaning where its whole token stands. -/
theorem Token.Spans.backed {t : Token} {p q : Nat} (h : t.Spans m p q) :
    ∀ e ∈ tokenEvents p t, e.Backed m o := by
  cases h with
  | visible _ _ => exact List.forall_mem_nil _
  | newline _ _ _ => exact List.forall_mem_nil _
  | paragraph _ _ => exact List.forall_mem_nil _
  | @ink c h0 h1 =>
      cases hink : Charset.ink? c with
      | some colour => simp [tokenEvents, hink]
      | none =>
          rw [tokenEvents, hink]
          exact List.forall_mem_singleton.2 (.inkIgnored (.ink h0 h1) hink)
  | paper h0 h1 => exact List.forall_mem_singleton.2 (.paperSkipped (.paper h0 h1))
  | control h0 hlt hn hi hp he =>
      exact List.forall_mem_singleton.2 (.controlIgnored (.control h0 hlt hn hi hp he))

theorem reports_read (start : Nat) : (read m part start).Reports (Event.Backed m o) := by
  have tokens : ((Text.tokens m part).walk start).Reports (Event.Backed m o) := by
    refine Records.reports_walk reports_tokenAt fun _ q t k _ hs => ?_
    exact (tokenAt_eq_record_iff_spans.1 hs).backed
  refine tokens.bind_record fun out hout => ?_
  have text : (read m part start).result = .ok (render out.1, out.2) :=
    Reading.bind_eq_ok_iff.2 ⟨out, hout, rfl⟩
  obtain ⟨l, hl, hrender⟩ := read_eq_ok_iff_standsAt.1 text
  rw [hrender]
  exact .textDecoded hl

theorem reports_readAll (start count : Nat) :
    (readAll m part start count).Reports (Event.Backed m o) := by
  refine (reports_packed fun _ p _ => reports_read p).bind_record fun out hout => ?_
  obtain ⟨hlen, hpacks⟩ := packed_eq_ok_iff.1 hout
  obtain ⟨ls, hls, htexts⟩ := packs_iff_packedAt.1 hpacks
  obtain rfl : ls.length = count := by rw [← hlen, htexts, List.length_map]
  exact .textsDecoded hls

end Text

/-! ## Exits -/

namespace Exits

theorem reports_pairAt (p : Nat) : (pairAt m p).Reports P := by
  refine (reports_byteAt p 0).bind fun direction _ => ?_
  split
  · exact reports_pure _
  · exact (reports_byteAt p 1).bind fun destination _ => reports_pure _

/-- The rows that have been read, as they stand in the snapshot. -/
theorem exists_rowsSpan {index start q : Nat} {maps : List Exits}
    (h : Packs (read m) index start maps q) :
    ∃ rows, RowsSpan m start rows q ∧ maps = rows.map OrderedMap.ofList := by
  obtain ⟨rows, hrows, hheld, hq, hmaps⟩ := packs_iff_holds.1 h
  exact ⟨rows, ⟨hrows, hheld, hq⟩, hmaps⟩

theorem reports_read {start q : Nat} {maps : List Exits} (h : Packs (read m) 0 start maps q) :
    (read m maps.length q).Reports (Event.Backed m o) := by
  have pairs : ((Exits.pairs m).walk q).Reports (Event.Backed m o) :=
    Records.reports_walk reports_pairAt fun _ _ _ _ _ _ => List.forall_mem_nil _
  refine pairs.bind_record fun out hout => ?_
  have row : (read m (0 + maps.length) q).result = .ok (OrderedMap.ofList out.1, out.2) := by
    rw [Nat.zero_add]
    exact Reading.bind_eq_ok_iff.2 ⟨out, hout, rfl⟩
  obtain ⟨rows, hspan, hmaps⟩ := exists_rowsSpan (h.concat row)
  -- The last of the rows is the one that has just been read.
  obtain ⟨before, last, rfl, rfl, hlast⟩ := List.map_eq_append_iff.1 hmaps.symm
  obtain ⟨row, rfl, hrow⟩ := List.map_eq_singleton_iff.1 hlast
  rw [← hrow, List.length_map]
  exact .exitsRead hspan

theorem reports_readAll (start count : Nat) :
    (readAll m start count).Reports (Event.Backed m o) := by
  refine (reports_packed fun _ _ => reports_read).bind_record fun out hout => ?_
  obtain ⟨-, hpacks⟩ := packed_eq_ok_iff.1 hout
  obtain ⟨rows, hspan, hmaps⟩ := exists_rowsSpan hpacks
  rw [hmaps, List.length_map]
  exact .connectionsRead hspan

end Exits

/-! ## The vocabulary -/

namespace Vocabulary

theorem reports_wordAt (p : Nat) : (Vocabulary.wordAt m p).Reports P := by
  refine (reports_byteAt p wordLength).bind fun token _ => ?_
  split
  · exact reports_pure _
  · exact (reports_slice p wordLength).bind fun stored _ => reports_pure _

/-- The records that a walk has passed stand one behind the other, up to its cursor. -/
theorem recordAt_of_passes {start p : Nat} {l : List (String × UInt8)}
    (h : (words m).Passes start l p) :
    (∀ k e, l[k]? = some e → RecordAt m (place start k) e) ∧ p = place start l.length := by
  have behind : ∀ start k, place start (k + 1) = place (start + (wordLength + 1)) k := by
    intro start k
    rw [place, place, Nat.mul_succ, Nat.add_assoc, Nat.add_comm (wordLength + 1)]
  induction h with
  | nil => exact ⟨fun k e hk => absurd hk (by simp), rfl⟩
  | @cons start w more l p hs _ ih =>
      obtain ⟨-, rfl, hrecord⟩ := wordAt_eq_record_iff.1 hs
      obtain ⟨hrecords, hp⟩ := ih
      refine ⟨fun k e hk => ?_, ?_⟩
      · cases k with
        | zero => exact Option.some.inj hk ▸ hrecord
        | succ k => exact behind start k ▸ hrecords k e hk
      · rw [hp, List.length_cons, behind]

theorem reports_read (start : Nat) : (read m start).Reports (Event.Backed m o) := by
  have words : ((Vocabulary.words m).walk start).Reports (Event.Backed m o) := by
    refine Records.reports_walk reports_wordAt fun l p w k hpass hs => ?_
    obtain ⟨-, -, hrecord⟩ := wordAt_eq_record_iff.1 hs
    refine List.forall_mem_cons.2 ⟨.wordRead hrecord, ?_⟩
    rw [List.forall_mem_map]
    intro previous hprevious
    -- The token that is replaced is that of a record in front of this one.
    obtain ⟨_, _, hl, -⟩ := List.lookup_eq_some_iff.1 (Option.mem_toList.1 hprevious)
    have hmem : (w.1, previous) ∈ l := List.mem_reverse.1 (hl ▸ by simp)
    obtain ⟨j, hj⟩ := List.mem_iff_getElem?.1 hmem
    obtain ⟨hrecords, rfl⟩ := recordAt_of_passes hpass
    have hlt : j < l.length := (List.getElem?_eq_some_iff.1 hj).1
    exact .tokenReplaced (place_strictMono start hlt) (hrecords j _ hj) hrecord
  refine words.bind_record fun out hout => ?_
  obtain ⟨q, w, hpass, hs, -⟩ := Records.walk_eq_ok_iff.1 hout
  obtain ⟨hrecords, rfl⟩ := recordAt_of_passes hpass
  exact .vocabularyRead hrecords (wordAt_eq_stop_iff.1 hs).2

end Vocabulary

/-! ## The decode -/

namespace Database

theorem reports_readTables (h : Header) :
    (readTables m Version.v0.arguments h).Reports (Event.Backed m o) := by
  refine (Rules.reports_readCommands h.responses).bind fun responses _ => ?_
  refine (Rules.reports_readCommands h.processes).bind fun processes _ => ?_
  refine (Text.reports_readAll h.objects _).bind fun objects _ => ?_
  refine (Text.reports_readAll h.locations _).bind fun locations _ => ?_
  refine (Text.reports_readAll h.messages _).bind fun messages _ => ?_
  refine (Exits.reports_readAll h.connections _).bind fun connections _ => ?_
  refine (Vocabulary.reports_read h.vocabulary).bind fun vocabulary _ => ?_
  exact (reports_slice h.positions _).bind fun positions _ => reports_pure _

theorem reports_decode (m : Snapshot) (o : Options) :
    (decode m o).Reports (Event.Backed m o) := by
  refine Reports.bind (List.forall_mem_nil _) fun version hversion => ?_
  cases version
  refine Signature.reports_locate.bind fun anchor hanchor => ?_
  refine (Header.reports_resolve anchor).bind fun h hresolve => ?_
  have hstands := Header.resolve_eq_ok_iff_standsBehind.1 hresolve
  have hlisted : Header.StandsBehind m h.anchor h := by
    rw [hstands.anchor]
    exact hstands
  refine (reports_record (.headerListed hlisted)).bind fun _ _ => ?_
  refine (reports_readTables h).bind_record fun d hd => .databaseDecoded ?_
  -- The database is summed up when nothing is left to fail.
  refine Reading.bind_eq_ok_iff.2 ⟨.v0, hversion, ?_⟩
  refine Reading.bind_eq_ok_iff.2 ⟨anchor, hanchor, ?_⟩
  refine Reading.bind_eq_ok_iff.2 ⟨h, hresolve, ?_⟩
  refine Reading.bind_eq_ok_iff.2 ⟨(), rfl, ?_⟩
  exact Reading.bind_eq_ok_iff.2 ⟨d, hd, rfl⟩

/-- What the log of a decode is, and what it becomes when bytes are put
behind the snapshot. -/
structure LogGrows (m : Snapshot) (x : Array UInt8) (o : Options) : Prop where
  /-- A decode that leaves the snapshot has written the beginning of the log
  that it writes with more bytes, also when it then fails further on. -/
  cut : ∀ part offset, (decode m o).result = .error (.malformed part offset) →
    (decode m o).log <+: (decode (m.append x) o).log
  /-- A decode that succeeds writes the same log with more bytes. -/
  whole : ∀ d, (decode m o).result = .ok d → (decode (m.append x) o).log = (decode m o).log
  /-- Whatever a decode comes to, each event is about something that is in
  the snapshot to its end. -/
  complete : ∀ e ∈ (decode m o).events, e.Backed m o

/-- Logs only grow with the snapshot, and they are about complete items only. -/
theorem decode_log (m : Snapshot) (x : Array UInt8) (o : Options) : LogGrows m x o := by
  have extension : Reading.Extends m.size (decode m o) (decode (m.append x) o) := extends_decode o
  refine ⟨?cut, ?whole, ?complete⟩
  case cut =>
    intro part offset h
    exact (extension.events part offset h).map _
  case whole =>
    intro d h
    rw [extension.ok d h]
  case complete => exact reports_decode m o

end Database
end Adventure
