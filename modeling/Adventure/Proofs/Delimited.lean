/-
# Writing that can be told from what follows

`Delimits write Next` says that a value can be told from its writing, and its
writing from what comes behind it: two writings with something behind them are
one text only when they are of one value, with the same behind both.  `Next`
says what may come behind; behind a decimal, for one, no digit may.

Whatever is put together from such writings is told apart in its turn, piece
by piece.  The rules below are for one writing behind another, for a run of
characters of one kind, for a list that goes on until something comes that is
no item, and for a list with something between its items.
-/
import Mathlib.Data.List.Infix
import Mathlib.Logic.Function.Basic

namespace Adventure

variable {α β τ : Type}

/-- A value can be told from its writing, whatever that is followed by. -/
def Delimits (write : α → List τ) (Next : List τ → Prop) : Prop :=
  ∀ ⦃a b u v⦄, Next u → Next v → write a ++ u = write b ++ v → a = b ∧ u = v

/-- What begins with nothing of the kind. -/
def Avoids (P : τ → Prop) (u : List τ) : Prop :=
  ∀ c ∈ u.head?, ¬ P c

section

variable {P Q : τ → Prop} {c : τ} {u v w w' : List τ}

@[simp] theorem avoids_nil : Avoids P [] := by
  simp [Avoids]

@[simp] theorem avoids_cons : Avoids P (c :: u) ↔ ¬ P c := by
  simp [Avoids]

theorem Avoids.mono (h : Avoids P u) (hQ : ∀ c, Q c → P c) : Avoids Q u :=
  fun c hc hq => h c hc (hQ c hq)

/-- What begins with `c`. -/
def Begins (c : τ) (u : List τ) : Prop :=
  u.head? = some c

@[simp] theorem begins_cons {d : τ} : Begins c (d :: u) ↔ d = c := by
  simp [Begins]

theorem Begins.avoids (h : Begins c u) (hP : ¬ P c) : Avoids P u := by
  intro d hd
  cases h.symm.trans hd
  exact hP

theorem Avoids.not_begins (h : Avoids P u) (hP : P c) : ¬ Begins c u :=
  fun hb => h c hb hP

/-- A text that is there and begins with nothing of another kind. -/
theorem avoids_append (hne : w ≠ []) (hw : ∀ c ∈ w, ¬ P c) : Avoids P (w ++ u) := by
  cases w with
  | nil => exact absurd rfl hne
  | cons c w => simpa using hw c (by simp)

theorem Avoids.append (hu : Avoids P u) (hw : ∀ c ∈ w, ¬ P c) : Avoids P (w ++ u) := by
  by_cases hne : w = []
  · simpa [hne] using hu
  · exact avoids_append hne hw

/-- A run of one kind ends where something else comes. -/
theorem run_append_inj (hw : ∀ c ∈ w, P c) (hw' : ∀ c ∈ w', P c) (hu : Avoids P u)
    (hv : Avoids P v) (h : w ++ u = w' ++ v) : w = w' ∧ u = v := by
  induction w generalizing w' with
  | nil =>
      cases w' with
      | nil => exact ⟨rfl, h⟩
      | cons c w' =>
          have hu' : u = c :: (w' ++ v) := h
          rw [hu', avoids_cons] at hu
          exact absurd (hw' c (by simp)) hu
  | cons c w ih =>
      obtain ⟨hc, hw⟩ := List.forall_mem_cons.1 hw
      cases w' with
      | nil =>
          have hv' : c :: (w ++ u) = v := h
          rw [← hv', avoids_cons] at hv
          exact absurd hc hv
      | cons d w' =>
          obtain ⟨rfl, hrest⟩ := List.cons.inj h
          obtain ⟨-, hw'⟩ := List.forall_mem_cons.1 hw'
          obtain ⟨rfl, rfl⟩ := ih hw hw' hrest
          exact ⟨rfl, rfl⟩

end

section

variable {write : α → List τ} {Next Stop : List τ → Prop}

/-- What can be told apart is different. -/
theorem Delimits.injective (h : Delimits write Next) (hnil : Next []) :
    Function.Injective write := by
  intro a b hab
  exact (h hnil hnil (congrArg (· ++ []) hab)).1

/-- Less may come behind. -/
theorem Delimits.mono (h : Delimits write Next) (hstop : ∀ u, Stop u → Next u) :
    Delimits write Stop :=
  fun _ _ u v hu hv heq => h (hstop u hu) (hstop v hv) heq

/-- Values that are told by something that can be told apart. -/
theorem Delimits.comp (h : Delimits write Next) {f : β → α} (hf : Function.Injective f) :
    Delimits (fun b => write (f b)) Next := by
  intro a b u v hu hv heq
  obtain ⟨hab, huv⟩ := h hu hv heq
  exact ⟨hf hab, huv⟩

/-- The same mark in front of every writing. -/
theorem Delimits.marked (h : Delimits write Next) (mark : List τ) :
    Delimits (fun a => mark ++ write a) Next := by
  intro a b u v hu hv heq
  rw [List.append_assoc, List.append_assoc] at heq
  exact h hu hv (List.append_cancel_left heq)

/-- A mark behind every writing, where that may come behind it: then anything may. -/
theorem Delimits.closed (h : Delimits write Next) (mark : List τ) (hmark : ∀ u, Next (mark ++ u)) :
    Delimits (fun a => write a ++ mark) fun _ => True := by
  intro a b u v _ _ heq
  rw [List.append_assoc, List.append_assoc] at heq
  obtain ⟨rfl, huv⟩ := h (hmark u) (hmark v) heq
  exact ⟨rfl, List.append_cancel_left huv⟩

/-- One writing behind another. -/
theorem Delimits.pair {write' : β → List τ} (h : Delimits write Next) (h' : Delimits write' Stop)
    (hnext : ∀ b u, Stop u → Next (write' b ++ u)) :
    Delimits (fun p : α × β => write p.1 ++ write' p.2) Stop := by
  rintro ⟨a, b⟩ ⟨a', b'⟩ u v hu hv heq
  rw [List.append_assoc, List.append_assoc] at heq
  obtain ⟨rfl, hrest⟩ := h (hnext b u hu) (hnext b' v hv) heq
  obtain ⟨rfl, rfl⟩ := h' hu hv hrest
  exact ⟨rfl, rfl⟩

/-- Runs of one kind. -/
theorem delimits_run {P : τ → Prop} (hinj : Function.Injective write)
    (hrun : ∀ a, ∀ c ∈ write a, P c) : Delimits write (Avoids P) := by
  intro a b u v hu hv heq
  obtain ⟨hab, huv⟩ := run_append_inj (hrun a) (hrun b) hu hv heq
  exact ⟨hinj hab, huv⟩

/-- Items one behind the other, until something comes that is no item. -/
theorem Delimits.flatMap (h : Delimits write Next) (hnext : ∀ a u, Next (write a ++ u))
    (hstop : ∀ u, Stop u → Next u) (hitem : ∀ a u, ¬ Stop (write a ++ u)) :
    Delimits (fun l : List α => l.flatMap write) Stop := by
  have next : ∀ (l : List α) {u}, Stop u → Next (l.flatMap write ++ u) := by
    intro l u hu
    cases l with
    | nil => exact hstop u hu
    | cons a l => simpa using hnext a (l.flatMap write ++ u)
  intro l l' u v hu hv heq
  induction l generalizing l' with
  | nil =>
      cases l' with
      | nil => exact ⟨rfl, heq⟩
      | cons b l' =>
          have hu' : u = write b ++ (l'.flatMap write ++ v) := by simpa using heq
          exact absurd (hu' ▸ hu) (hitem b _)
  | cons a l ih =>
      cases l' with
      | nil =>
          have hv' : write a ++ (l.flatMap write ++ u) = v := by simpa using heq
          exact absurd (hv' ▸ hv) (hitem a _)
      | cons b l' =>
          have heq' : write a ++ (l.flatMap write ++ u) = write b ++ (l'.flatMap write ++ v) := by
            simpa using heq
          obtain ⟨rfl, hrest⟩ := h (next l hu) (next l' hv) heq'
          obtain ⟨rfl, rfl⟩ := ih hrest
          exact ⟨rfl, rfl⟩

/-- Behind the first item the others come with the separator in front of each. -/
theorem intercalate_cons (sep w : List τ) (ws : List (List τ)) :
    sep.intercalate (w :: ws) = w ++ ws.flatMap fun w => sep ++ w := by
  induction ws generalizing w with
  | nil => simp
  | cons w' ws ih =>
      rw [List.intercalate_cons_cons, ih w', List.flatMap_cons]
      simp

/-- Items with a separator between them. -/
theorem Delimits.intercalate {sep : List τ} (h : Delimits write Next)
    (hsep : ∀ u, Next (sep ++ u)) (hstop : ∀ u, Stop u → Next u)
    (hmore : ∀ u, ¬ Stop (sep ++ u)) (hitem : ∀ a u, ¬ Stop (write a ++ u)) :
    Delimits (fun l : List α => sep.intercalate (l.map write)) Stop := by
  have others : Delimits (fun l : List α => l.flatMap fun a => sep ++ write a) Stop := by
    refine (h.marked sep).flatMap ?_ hstop ?_
    · intro a u
      rw [List.append_assoc]
      exact hsep _
    · intro a u
      rw [List.append_assoc]
      exact hmore _
  have next : ∀ (l : List α) {u}, Stop u → Next ((l.flatMap fun a => sep ++ write a) ++ u) := by
    intro l u hu
    cases l with
    | nil => exact hstop u hu
    | cons a l => simpa using hsep (write a ++ ((l.flatMap fun a => sep ++ write a) ++ u))
  intro l l' u v hu hv heq
  cases l with
  | nil =>
      cases l' with
      | nil => exact ⟨rfl, heq⟩
      | cons b l' =>
          simp only [List.map_cons, intercalate_cons, List.map_nil, List.intercalate_nil,
            List.nil_append, List.append_assoc] at heq
          exact absurd (heq ▸ hu) (hitem b _)
  | cons a l =>
      cases l' with
      | nil =>
          simp only [List.map_cons, intercalate_cons, List.map_nil, List.intercalate_nil,
            List.nil_append, List.append_assoc] at heq
          exact absurd (heq ▸ hv) (hitem a _)
      | cons b l' =>
          simp only [List.map_cons, intercalate_cons, List.flatMap_map, List.append_assoc] at heq
          obtain ⟨rfl, hrest⟩ := h (next l hu) (next l' hv) heq
          obtain ⟨rfl, rfl⟩ := others hu hv hrest
          exact ⟨rfl, rfl⟩

end

/-- A text that is put together piece by piece is its pieces one behind the other. -/
theorem toList_foldl_append (piece : α → String) (l : List α) (text : String) :
    (l.foldl (fun text a => text ++ piece a) text).toList =
      text.toList ++ l.flatMap fun a => (piece a).toList := by
  induction l generalizing text with
  | nil => simp
  | cons a l ih =>
      rw [List.foldl_cons, ih, List.flatMap_cons, String.toList_append, List.append_assoc]

end Adventure
