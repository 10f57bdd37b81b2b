/-
# The line of a command is of one command only

A command is listed on a line: its words in columns, its conditions and its
actions in brackets, each with its opcode and its parameters.  Every part can
be told from what follows it, and so the line can be read back; only the
parameters are shown without saying which is which, and so an action must not
have a second one without a first.

The main statement is `text_first_eq_iff`: two chains of commands begin with
one line exactly when their first commands have the same words, the same
conditions and the same actions.  What the chains go on with plays no part.
-/
import Adventure.Proofs.Numeral
import Adventure.Proofs.WellFormed
import Adventure.Rules.Command

namespace Adventure

open Numeral (decimal delimits_decimal delimits_column)

/-! ## Instructions -/

/-- An opcode behind its letter, and parameters with a space in front of each. -/
def Rules.written (letter : Char) (x : UInt8 × List UInt8) : List Char :=
  letter :: (decimal x.1.toNat ++ x.2.flatMap fun p => ' ' :: decimal p.toNat)

theorem Rules.toList_join_params (params : List UInt8) :
    (String.join (params.map fun p => " " ++ toString p.toNat)).toList =
      params.flatMap fun p => ' ' :: decimal p.toNat := by
  simp [String.toList_join, List.flatMap_map, decimal]

theorem Condition.toList_text (c : Condition) :
    c.text.toList = Rules.written 'C' (c.opcode, c.param1 :: c.param2.toList) := by
  simp only [text, String.toList_append, Rules.toList_join_params, Rules.written]
  simp [decimal]

theorem Action.toList_text (a : Action) :
    a.text.toList = Rules.written 'A' (a.opcode, a.params) := by
  simp only [text, String.toList_append, Rules.toList_join_params, Rules.written]
  simp [decimal]

namespace Rules

/-- What may go on with an instruction. -/
def Continues (c : Char) : Prop :=
  c.isDigit = true ∨ c = ' '

/-- An instruction ends where neither a digit nor a space comes. -/
theorem delimits_written (letter : Char) : Delimits (written letter) (Avoids Continues) := by
  have byte : Delimits (fun b : UInt8 => decimal b.toNat) (Avoids fun c => c.isDigit = true) :=
    delimits_decimal.comp fun _ _ => UInt8.toNat_inj.1
  have stop : ∀ u, Avoids Continues u → Avoids (fun c => c.isDigit = true) u :=
    fun _ hu => hu.mono fun _ => .inl
  have params : Delimits (fun ps : List UInt8 => ps.flatMap fun p => ' ' :: decimal p.toNat)
      (Avoids Continues) := by
    refine (byte.marked [' ']).flatMap ?_ stop ?_
    · simp
    · simp [Continues]
  refine (byte.pair params fun ps u hu => ?_).marked [letter]
  cases ps with
  | nil => exact stop u hu
  | cons p ps => simp

/-! ## Brackets -/

/-- Instructions in brackets, with a space in front of each. -/
def brackets (letter : Char) (l : List (UInt8 × List UInt8)) : List Char :=
  l.flatMap fun x => ' ' :: '[' :: (written letter x ++ [']'])

theorem toList_bracketed (items : List String) :
    (Command.bracketed items).toList = items.flatMap fun i => ' ' :: '[' :: (i.toList ++ [']']) := by
  simp only [Command.bracketed, String.append_assoc, toList_foldl_append]
  simp

/-- Instructions in brackets end where no bracket comes. -/
theorem delimits_brackets (letter : Char) :
    Delimits (brackets letter) fun u => ¬ [' ', '['] <+: u := by
  have item : Delimits (fun x => [' ', '['] ++ (written letter x ++ [']'])) fun _ => True :=
    ((delimits_written letter).closed [']'] fun u => by simp [Continues]).marked [' ', '[']
  refine item.flatMap (fun _ _ => trivial) (fun _ _ => trivial) ?_
  simp

end Rules

/-! ## Commands -/

namespace Action

/-- A second parameter comes only behind a first one. -/
def Ordered (a : Action) : Prop :=
  a.param2.isSome → a.param1.isSome

instance (a : Action) : Decidable a.Ordered :=
  inferInstanceAs (Decidable (_ → _))

/-- Actions have as many parameters as their opcodes ask for, and so the
second one only behind the first. -/
theorem WellFormed.ordered {arguments : ArgumentTable} {a : Action}
    (h : a.WellFormed arguments) : a.Ordered := by
  intro hsecond
  have htwo := h.2.2.1 hsecond
  exact h.2.1.2 (Nat.le_of_succ_le htwo)

/-- An action whose parameters are in order is told by what is written of it. -/
theorem eq_of_written {a b : Action} (ha : a.Ordered) (hb : b.Ordered)
    (hop : a.opcode = b.opcode) (hparams : a.params = b.params) : a = b := by
  obtain ⟨op, p, q⟩ := a
  obtain ⟨op', p', q'⟩ := b
  cases p <;> cases q <;> cases p' <;> cases q' <;> simp_all [Ordered, params]

end Action

namespace Command

/-- The actions of the command can be told by their parameters. -/
def Ordered (c : Command) : Prop :=
  ∀ a ∈ c.actionList, a.Ordered

instance (c : Command) : Decidable c.Ordered :=
  inferInstanceAs (Decidable (∀ a ∈ c.actionList, a.Ordered))

theorem WellFormed.ordered {kind : CommandKind} {c : Command} (h : c.WellFormed kind) :
    c.Ordered :=
  fun a ha => (h.actions a ha).ordered

/-- Commands with the same words, the same conditions and the same actions. -/
structure Alike (c d : Command) : Prop where
  word1 : c.word1 = d.word1
  word2 : c.word2 = d.word2
  conditions : c.conditions = d.conditions
  actions : c.actionList = d.actionList

theorem toList_text (c : Command) :
    c.text.toList =
      (Numeral.column 3 c.word1.toNat).toList ++ ' ' ::
        ((Numeral.column 3 c.word2.toNat).toList ++ ' ' :: ':' ::
          (Rules.brackets 'C' (c.conditions.map fun x => (x.opcode, x.param1 :: x.param2.toList)) ++
            ' ' :: '=' :: '>' ::
              Rules.brackets 'A' (c.actionList.map fun a => (a.opcode, a.params)))) := by
  simp [text, Rules.toList_bracketed, Rules.brackets, List.flatMap_map, Condition.toList_text,
    Action.toList_text]

/-- Conditions are told by what is written of them. -/
theorem conditions_eq_of_written {cs cs' : List Condition}
    (h : cs.map (fun x => (x.opcode, x.param1 :: x.param2.toList)) =
      cs'.map fun x => (x.opcode, x.param1 :: x.param2.toList)) : cs = cs' := by
  refine List.map_injective_iff.2 ?_ h
  rintro ⟨op, p, q⟩ ⟨op', p', q'⟩ heq
  cases q <;> cases q' <;> simp_all

theorem actions_eq_of_written {as as' : List Action} (has : ∀ a ∈ as, a.Ordered)
    (has' : ∀ a ∈ as', a.Ordered)
    (h : as.map (fun a => (a.opcode, a.params)) = as'.map fun a => (a.opcode, a.params)) :
    as = as' := by
  induction as generalizing as' with
  | nil => exact (List.map_eq_nil_iff.1 h.symm).symm
  | cons a as ih =>
      cases as' with
      | nil => cases h
      | cons b as' =>
          obtain ⟨ha, has⟩ := List.forall_mem_cons.1 has
          obtain ⟨hb, has'⟩ := List.forall_mem_cons.1 has'
          obtain ⟨hab, hrest⟩ := List.cons.inj h
          obtain ⟨hop, hparams⟩ := Prod.mk.inj hab
          rw [Action.eq_of_written ha hb hop hparams, ih has has' hrest]

/-- The line of a command shows its words, its conditions and its actions, and
nothing else. -/
theorem text_eq_iff {c d : Command} (hc : c.Ordered) (hd : d.Ordered) :
    c.text = d.text ↔ Alike c d := by
  constructor
  · intro h
    have heq := congrArg String.toList h
    rw [toList_text, toList_text] at heq
    have word : Delimits (fun w : UInt8 => (Numeral.column 3 w.toNat).toList)
        (Avoids fun c => c.isDigit = true) :=
      (delimits_column 3).comp fun _ _ => UInt8.toNat_inj.1
    obtain ⟨hword1, heq⟩ := word (by simp) (by simp) heq
    obtain ⟨hword2, heq⟩ := word (by simp) (by simp) (List.cons.inj heq).2
    obtain ⟨hconditions, heq⟩ := Rules.delimits_brackets 'C' (by simp) (by simp)
      (List.cons.inj (List.cons.inj heq).2).2
    have hactions := (Rules.delimits_brackets 'A').injective (by simp)
      (List.cons.inj (List.cons.inj (List.cons.inj heq).2).2).2
    exact ⟨hword1, hword2, conditions_eq_of_written hconditions,
      actions_eq_of_written hc hd hactions⟩
  · rintro ⟨hword1, hword2, hconditions, hactions⟩
    rw [text, text, hword1, hword2, hconditions, hactions]

/-- Chains of commands begin with one line exactly when their first commands
are alike, whatever comes behind these. -/
theorem text_first_eq_iff {c d : Chain Command} (hc : c.first.Ordered) (hd : d.first.Ordered) :
    c.first.text = d.first.text ↔ Alike c.first d.first :=
  text_eq_iff hc hd

/-- A response with instructions of every length. -/
def sampleResponse : Command :=
  ⟨20, 255, [⟨3, 0, none⟩, ⟨13, 5, some 1⟩],
    Chain.ofList? [⟨4, none, none⟩, ⟨13, some 0, none⟩, ⟨30, some 1, some 200⟩]⟩

/-- The response with more commands behind it, and with none. -/
theorem text_first_eq_iff_sample :
    (Chain.link sampleResponse (.last ⟨1, 2, [], none⟩)).first.Ordered ∧
      (Chain.last sampleResponse).first.Ordered ∧
      ((Chain.link sampleResponse (.last ⟨1, 2, [], none⟩)).first.text =
          (Chain.last sampleResponse).first.text ↔
        Alike (Chain.link sampleResponse (.last ⟨1, 2, [], none⟩)).first
          (Chain.last sampleResponse).first) := by
  have hc : (Chain.link sampleResponse (.last ⟨1, 2, [], none⟩)).first.Ordered := by decide
  have hd : (Chain.last sampleResponse).first.Ordered := by decide
  exact ⟨hc, hd, text_first_eq_iff hc hd⟩

-- A second parameter without a first would be taken for the first.
example : (⟨30, none, some 1⟩ : Action).text = (⟨30, some 1, none⟩ : Action).text := by decide

end Command
end Adventure
