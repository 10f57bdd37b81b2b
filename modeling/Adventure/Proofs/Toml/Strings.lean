/-
# TOML strings can be read back

A string can be told from its text, in whichever of the four forms it is
written.  The quotes in front tell the form (`quoteForm`).  Within a basic
string a character stands for itself or has an escape; `Codes c w` says that
`w` is written for `c`, and no such `w` begins another one.  What a literal
string holds is never taken for the quotes that close it, since the form is
chosen for strings without such quotes only (`Form.Fits`).

Between triple quotes a string may end in quotes of its own.  They belong to
it because no quote comes behind a string.

The main statements are `delimits_string` and `delimits_key`.
-/
import Adventure.Proofs.Delimited
import Adventure.Toml.Written

namespace Adventure
namespace Toml

variable {c d : Char} {w w' s s' u v : List Char}

/-! ## Escapes -/

/-- The escape that a character has in a basic string on one line. -/
def escaped? (c : Char) : Option (List Char) :=
  if c = '"' then some ['\\', '"'] else if c = '\n' then some ['\\', 'n'] else escape? c

/-- The characters that have an escape, each with its own. -/
def escapes : List (Char × List Char) :=
  ((List.range 128).map Char.ofNat).filterMap fun c => (escaped? c).map fun w => (c, w)

/-- What is written for a character of a basic string. -/
inductive Codes : Char → List Char → Prop where
  | plain {c : Char} : c ≠ '\\' → Codes c [c]
  | escape {c : Char} {w : List Char} : escaped? c = some w → Codes c w

theorem lt_of_escaped? (h : escaped? c = some w) : c.toNat < 128 := by
  refine Nat.lt_of_not_le fun hc => ?_
  have small : ∀ d ∈ ['"', '\n', '\x08', '\t', '\x0c', '\r', '\\'], d.toNat < 128 := by simp
  have other : ∀ d ∈ ['"', '\n', '\x08', '\t', '\x0c', '\r', '\\'], c ≠ d := by
    rintro d hd rfl
    exact Nat.not_lt_of_le hc (small c hd)
  have high : ¬ c.toNat < 32 ∧ c.toNat ≠ 127 := by omega
  simp only [List.forall_mem_cons] at other
  simp [escaped?, escape?, other, high] at h

theorem mem_escapes (h : escaped? c = some w) : (c, w) ∈ escapes := by
  refine List.mem_filterMap.2 ⟨c, ?_, by rw [h, Option.map_some]⟩
  exact List.mem_map.2 ⟨c.toNat, List.mem_range.2 (lt_of_escaped? h), Char.ofNat_toNat c⟩

/-- No escape begins another one. -/
theorem escapes_prefixFree : ∀ e ∈ escapes, ∀ e' ∈ escapes, e.2 <+: e'.2 → e = e' := by
  decide +kernel

theorem head_of_escaped? (h : escaped? c = some w) : w.head? = some '\\' := by
  have all : ∀ e ∈ escapes, e.2.head? = some '\\' := by decide +kernel
  exact all _ (mem_escapes h)

/-- The character is told by what is written for it, whatever comes behind. -/
theorem Codes.unique (h : Codes c w) (h' : Codes d w') (heq : w ++ u = w' ++ v) :
    c = d ∧ u = v := by
  -- A backslash in front tells that there is an escape.
  have mixed : ∀ {c d : Char} {w u v : List Char}, c ≠ '\\' → escaped? d = some w →
      [c] ++ u ≠ w ++ v := by
    intro c d w u v hc hw heq
    obtain ⟨w, rfl⟩ := List.head?_eq_some_iff.1 (head_of_escaped? hw)
    exact hc (List.cons.inj heq).1
  cases h with
  | plain hc =>
      cases h' with
      | plain _ => exact List.cons.inj heq
      | escape hw' => exact absurd heq (mixed hc hw')
  | escape hw =>
      cases h' with
      | plain hd => exact absurd heq.symm (mixed hd hw)
      | escape hw' =>
          have hmem := mem_escapes hw
          have hmem' := mem_escapes hw'
          have hprefix : w <+: w' ++ v := heq ▸ List.prefix_append w u
          have hpair : (c, w) = (d, w') := by
            rcases List.prefix_or_prefix_of_prefix hprefix (List.prefix_append w' v) with hle | hle
            · exact escapes_prefixFree _ hmem _ hmem' hle
            · exact (escapes_prefixFree _ hmem' _ hmem hle).symm
          cases hpair
          exact ⟨rfl, List.append_cancel_left heq⟩

/-- Nothing but the character itself and a backslash begins what is written for it. -/
theorem Codes.avoids {x : Char} (h : Codes c w) (hplain : w = [c] → c ≠ x) (hx : x ≠ '\\') :
    Avoids (· = x) (w ++ u) := by
  cases h with
  | plain _ => simpa using hplain rfl
  | escape hw =>
      obtain ⟨w, rfl⟩ := List.head?_eq_some_iff.1 (head_of_escaped? hw)
      simpa using hx.symm

/-! ## Basic strings on one line -/

theorem codes_basicCharacter (c : Char) : Codes c (basicCharacter c) := by
  have same : basicCharacter c = (escaped? c).getD [c] := by
    unfold basicCharacter escaped?
    split
    · rfl
    · split <;> rfl
  rw [same]
  cases hw : escaped? c with
  | some w => exact .escape hw
  | none =>
      refine .plain ?_
      rintro rfl
      exact absurd hw (by decide)

/-- A quote inside a basic string is never written by itself. -/
theorem avoids_basicCharacter (c : Char) (u : List Char) :
    Avoids (· = '"') (basicCharacter c ++ u) := by
  refine (codes_basicCharacter c).avoids ?_ (by decide)
  rintro hplain rfl
  exact absurd hplain (by decide)

/-- A basic string is over at its first quote. -/
theorem delimits_basic : Delimits basic fun _ => True := by
  have characters : Delimits basicCharacter fun _ => True :=
    fun c d u v _ _ heq => (codes_basicCharacter c).unique (codes_basicCharacter d) heq
  have body : Delimits (fun s : List Char => s.flatMap basicCharacter) (Begins '"') :=
    characters.flatMap (fun _ _ => trivial) (fun _ _ => trivial)
      fun c u => (avoids_basicCharacter c u).not_begins rfl
  exact (body.marked ['"']).closed ['"'] fun u => begins_cons.2 rfl

/-! ## Basic strings between triple quotes -/

/-- The quotes that close a string between triple quotes. -/
def closing (quote : Char) : List Char :=
  [quote, quote, quote]

/-- What is written for a character behind `quotes` quotes in a row. -/
def blockCharacter (quotes : Nat) (c : Char) : List Char :=
  if c = '"' then (if quotes < 2 then [c] else ['\\', c]) else (escape? c).getD [c]

/-- The quotes in a row behind that. -/
def quotesBehind (quotes : Nat) (c : Char) : Nat :=
  if c = '"' ∧ quotes < 2 then quotes + 1 else 0

theorem blockCharacters_cons (quotes : Nat) (c : Char) (s : List Char) :
    blockCharacters quotes (c :: s) =
      blockCharacter quotes c ++ blockCharacters (quotesBehind quotes c) s := by
  unfold blockCharacter quotesBehind
  rw [blockCharacters]
  by_cases hc : c = '"'
  · by_cases hq : quotes < 2
    · simp [hc, hq]
    · simp [hc, hq]
  · simp [hc]

theorem quotesBehind_le (quotes : Nat) (c : Char) : quotesBehind quotes c ≤ 2 := by
  unfold quotesBehind
  split <;> omega

theorem codes_blockCharacter (quotes : Nat) (c : Char) : Codes c (blockCharacter quotes c) := by
  unfold blockCharacter
  by_cases hc : c = '"'
  · subst hc
    by_cases hq : quotes < 2
    · simpa [hq] using Codes.plain (c := '"') (by decide)
    · simpa [hq] using Codes.escape (c := '"') rfl
  · rw [if_neg hc]
    cases hw : escape? c with
    | some w =>
        have hn : c ≠ '\n' := by
          rintro rfl
          cases hw
        refine .escape ?_
        rw [escaped?, if_neg hc, if_neg hn, hw]
        rfl
    | none =>
        refine .plain ?_
        rintro rfl
        exact absurd hw (by decide)

/-- Only a quote that is not the third one is written by itself. -/
theorem avoids_blockCharacter {quotes : Nat} (h : ¬ (c = '"' ∧ quotes < 2)) (u : List Char) :
    Avoids (· = '"') (blockCharacter quotes c ++ u) := by
  refine (codes_blockCharacter quotes c).avoids ?_ (by decide)
  rintro hplain rfl
  refine h ⟨rfl, Nat.lt_of_not_le fun hq => ?_⟩
  rw [blockCharacter, if_pos rfl, if_neg (Nat.not_lt_of_le hq)] at hplain
  exact absurd hplain (by decide)

/-- Quotes in a row, three of them or more with those in front, are the rest
of the string and the quotes that close it. -/
theorem length_add_three {quotes n : Nat} (hquotes : quotes ≤ 2) (hn : 3 ≤ n + quotes)
    (hu : Avoids (· = '"') u) (hv : Avoids (· = '"') v)
    (h : List.replicate n '"' ++ u = blockCharacters quotes s ++ (closing '"' ++ v)) :
    s.length + 3 = n ∧ u = v := by
  induction s generalizing quotes n with
  | nil =>
      have run : ∀ k, ∀ c ∈ List.replicate k '"', c = '"' := fun _ _ => List.eq_of_mem_replicate
      obtain ⟨hrun, huv⟩ := run_append_inj (run n) (run 3) hu hv h
      exact ⟨by simpa using congrArg List.length hrun.symm, huv⟩
  | cons c s ih =>
      obtain ⟨n, rfl⟩ : ∃ k, n = k + 1 := ⟨n - 1, by omega⟩
      rw [blockCharacters_cons, List.append_assoc] at h
      by_cases hraw : c = '"' ∧ quotes < 2
      · obtain ⟨rfl, hq⟩ := hraw
        simp only [blockCharacter, quotesBehind, hq, and_self, if_true] at h
        obtain ⟨-, hrest⟩ := List.cons.inj h
        obtain ⟨hlen, huv⟩ := ih (by omega) (by omega) hrest
        rw [List.length_cons]
        exact ⟨by omega, huv⟩
      · have havoids := avoids_blockCharacter hraw (blockCharacters (quotesBehind quotes c) s ++
          (closing '"' ++ v))
        rw [← h, List.replicate_succ, List.cons_append, avoids_cons] at havoids
        exact absurd rfl havoids

/-- Behind the closing quotes there is no other one, and so they are the last three. -/
theorem delimits_blockCharacters {quotes : Nat} (hquotes : quotes ≤ 2) :
    Delimits (fun s => blockCharacters quotes s ++ closing '"') (Avoids (· = '"')) := by
  intro s s' u v hu hv heq
  simp only [List.append_assoc] at heq
  induction s generalizing quotes s' with
  | nil =>
      cases s' with
      | nil => exact ⟨rfl, List.append_cancel_left heq⟩
      | cons d s' =>
          have hlen := (length_add_three (n := 3) hquotes (by omega) hu hv heq).1
          simp at hlen
  | cons c s ih =>
      cases s' with
      | nil =>
          have hlen := (length_add_three (n := 3) hquotes (by omega) hv hu heq.symm).1
          simp at hlen
      | cons d s' =>
          rw [blockCharacters_cons, blockCharacters_cons, List.append_assoc,
            List.append_assoc] at heq
          obtain ⟨rfl, hrest⟩ :=
            (codes_blockCharacter quotes c).unique (codes_blockCharacter quotes d) heq
          obtain ⟨rfl, rfl⟩ := ih (quotesBehind_le quotes c) hrest
          exact ⟨rfl, rfl⟩

/-! ## Literal strings -/

/-- A literal string on one line is over at its first quote. -/
theorem literal_append_inj (hs : '\'' ∉ s) (hs' : '\'' ∉ s')
    (h : s ++ '\'' :: u = s' ++ '\'' :: v) : s = s' ∧ u = v := by
  have run : ∀ {s : List Char}, '\'' ∉ s → ∀ c ∈ s, c ≠ '\'' := by
    rintro s hs c hc rfl
    exact hs hc
  obtain ⟨rfl, hrest⟩ := run_append_inj (run hs) (run hs') (by simp) (by simp) h
  exact ⟨rfl, (List.cons.inj hrest).2⟩

/-- Closing quotes are not moved by less than three quotes in front of them. -/
theorem eq_nil_of_closing (hu : Avoids (· = '\'') u)
    (hw : ¬ closing '\'' <+: w) (h : closing '\'' ++ u = w ++ (closing '\'' ++ v)) : w = [] := by
  match w with
  | [] => rfl
  | [a] =>
      simp only [closing, List.cons_append, List.nil_append, List.cons.injEq] at h
      simp [h.2.2.2] at hu
  | [a, b] =>
      simp only [closing, List.cons_append, List.nil_append, List.cons.injEq] at h
      simp [h.2.2.2] at hu
  | a :: b :: c :: w =>
      simp only [closing, List.cons_append, List.cons.injEq] at h
      obtain ⟨rfl, rfl, rfl, -⟩ := h
      exact absurd ⟨w, rfl⟩ hw

/-- A literal string between triple quotes is over at the last three of the
first three or more quotes in a row. -/
theorem literalBlock_append_inj (hs : ¬ closing '\'' <:+: s) (hs' : ¬ closing '\'' <:+: s')
    (hu : Avoids (· = '\'') u) (hv : Avoids (· = '\'') v)
    (h : s ++ (closing '\'' ++ u) = s' ++ (closing '\'' ++ v)) : s = s' ∧ u = v := by
  have none : ∀ {s w : List Char}, ¬ closing '\'' <:+: s ++ w → ¬ closing '\'' <+: w :=
    fun hs hw => hs (hw.isInfix.trans (List.suffix_append _ _).isInfix)
  rcases List.append_eq_append_iff.1 h with ⟨w, rfl, hrest⟩ | ⟨w, rfl, hrest⟩
  · obtain rfl := eq_nil_of_closing hu (none hs') hrest
    exact ⟨(List.append_nil s).symm, List.append_cancel_left hrest⟩
  · obtain rfl := eq_nil_of_closing hv (none hs) hrest
    exact ⟨List.append_nil s', (List.append_cancel_left hrest).symm⟩

/-! ## Runs of a character -/

theorem max_le_longestRunFrom (run best : Nat) (s : List Char) :
    max run best ≤ longestRunFrom c run best s := by
  induction s generalizing run best with
  | nil => exact Nat.le_refl _
  | cons d s ih =>
      unfold longestRunFrom
      split
      · have := ih (run + 1) best
        omega
      · have := ih 0 (max run best)
        omega

theorem add_le_longestRunFrom (n run best : Nat) (s : List Char) :
    run + n ≤ longestRunFrom c run best (List.replicate n c ++ s) := by
  induction n generalizing run with
  | zero => exact Nat.le_trans (Nat.le_max_left run best) (max_le_longestRunFrom run best s)
  | succ n ih =>
      rw [List.replicate_succ, List.cons_append, longestRunFrom, if_pos rfl, Nat.add_comm n,
        ← Nat.add_assoc]
      exact ih (run + 1)

theorem le_longestRunFrom (n run best : Nat) (s t : List Char) :
    n ≤ longestRunFrom c run best (s ++ (List.replicate n c ++ t)) := by
  induction s generalizing run best with
  | nil => exact Nat.le_of_add_left_le (add_le_longestRunFrom n run best t)
  | cons d s ih =>
      rw [List.cons_append, longestRunFrom]
      split
      · exact ih (run + 1) best
      · exact ih 0 (max run best)

/-- The longest run is as long as every run that there is. -/
theorem le_longestRun {n : Nat} (h : List.replicate n c <:+: s) : n ≤ longestRun c s := by
  obtain ⟨t, u, rfl⟩ := h
  rw [List.append_assoc]
  exact le_longestRunFrom n 0 0 t u

/-! ## The four forms -/

/-- The string can be told from its text in this form. -/
def Form.Fits (s : List Char) : Form → Prop
  | .basic => True
  | .literal => s ≠ [] ∧ '\'' ∉ s
  | .basicBlock => True
  | .literalBlock => ¬ closing '\'' <:+: s

/-- The form is chosen by what the string holds. -/
theorem Form.fits_of (s : List Char) : (Form.of s).Fits s := by
  unfold Form.of
  simp only
  split
  · trivial
  · rename_i hbasic
    split
    · rename_i hliteral
      simp only [Bool.and_eq_true, beq_iff_eq] at hliteral
      refine ⟨?_, fun hmem => ?_⟩
      · rintro rfl
        exact hbasic (by decide)
      · have hrun : List.replicate 1 '\'' <:+: s := (List.singleton_infix_iff _ _).2 hmem
        have := le_longestRun hrun
        omega
    · split
      · trivial
      · split
        · rename_i hblock
          simp only [Bool.and_eq_true, decide_eq_true_eq] at hblock
          intro hinfix
          have := le_longestRun (n := 3) hinfix
          omega
        · split <;> trivial

/-- A quote of either kind. -/
def IsQuote (c : Char) : Prop :=
  c = '"' ∨ c = '\''

instance : DecidablePred IsQuote :=
  fun _ => inferInstanceAs (Decidable (_ ∨ _))

/-- The form that a text is in, by the quotes in front. -/
def quoteForm (text : List Char) : Form :=
  if closing '"' <+: text then .basicBlock
  else if closing '\'' <+: text then .literalBlock
  else if text.head? = some '"' then .basic
  else .literal

theorem not_prefix_of_avoids {x : Char} (h : Avoids (· = x) u) : ¬ x :: w <+: u := by
  rintro ⟨v, rfl⟩
  exact avoids_cons.1 h rfl

/-- The form is told by the quotes in front, when no quote comes behind. -/
theorem quoteForm_inForm {f : Form} (h : f.Fits s) (hu : Avoids IsQuote u) :
    quoteForm (inForm s f ++ u) = f := by
  cases f with
  | basic =>
      have two : ¬ ['"', '"'] <+: s.flatMap basicCharacter ++ '"' :: u := by
        cases s with
        | nil =>
            rw [List.flatMap_nil, List.nil_append, List.cons_prefix_cons]
            exact fun h => not_prefix_of_avoids (hu.mono fun _ => .inl) h.2
        | cons c s =>
            rw [List.flatMap_cons, List.append_assoc]
            exact not_prefix_of_avoids (avoids_basicCharacter c _)
      simp [quoteForm, inForm, basic, closing, List.cons_prefix_cons, two]
  | literal =>
      obtain ⟨hne, hs⟩ := h
      obtain ⟨c, s, rfl⟩ := List.exists_cons_of_ne_nil hne
      have hc : '\'' ≠ c := fun h => hs (h ▸ List.mem_cons_self)
      simp [quoteForm, inForm, closing, List.cons_prefix_cons, hc]
  | basicBlock => simp [quoteForm, inForm, closing, List.cons_prefix_cons]
  | literalBlock => simp [quoteForm, inForm, closing, List.cons_prefix_cons]

/-- A line feed behind the opening quotes is there for one in the string. -/
theorem opening_append_inj (hw : '\n' ∉ s → Avoids (· = '\n') w)
    (hw' : '\n' ∉ s' → Avoids (· = '\n') w') (h : opening s ++ w = opening s' ++ w') : w = w' := by
  have text : ∀ {s w : List Char}, ('\n' ∈ s → opening s ++ w = '\n' :: w) ∧
      ('\n' ∉ s → opening s ++ w = w) := by
    intro s w
    constructor <;> intro hs <;> simp [opening, hs]
  by_cases hs : '\n' ∈ s
  · rw [text.1 hs] at h
    by_cases hs' : '\n' ∈ s'
    · rw [text.1 hs'] at h
      exact (List.cons.inj h).2
    · rw [text.2 hs'] at h
      have first := hw' hs'
      rw [← h, avoids_cons] at first
      exact absurd rfl first
  · rw [text.2 hs] at h
    by_cases hs' : '\n' ∈ s'
    · rw [text.1 hs'] at h
      have first := hw hs
      rw [h, avoids_cons] at first
      exact absurd rfl first
    · rwa [text.2 hs'] at h

/-- Within a form, a string is told by its text. -/
theorem inForm_append_inj {f : Form} (h : f.Fits s) (h' : f.Fits s') (hu : Avoids IsQuote u)
    (hv : Avoids IsQuote v) (heq : inForm s f ++ u = inForm s' f ++ v) : s = s' ∧ u = v := by
  cases f with
  | basic => exact delimits_basic trivial trivial heq
  | literal =>
      simp only [inForm, List.cons_append, List.append_assoc, List.nil_append,
        List.cons.injEq, true_and] at heq
      exact literal_append_inj h.2 h'.2 heq
  | basicBlock =>
      have first : ∀ {s u : List Char}, '\n' ∉ s →
          Avoids (· = '\n') (blockCharacters 0 s ++ (closing '"' ++ u)) := by
        intro s u hs
        cases s with
        | nil => exact avoids_cons.2 (by decide)
        | cons c s =>
            rw [blockCharacters_cons, List.append_assoc]
            refine (codes_blockCharacter 0 c).avoids (fun _ hc => ?_) (by decide)
            exact hs (hc ▸ List.mem_cons_self)
      simp only [inForm, List.append_assoc] at heq
      have body := opening_append_inj first first (List.append_cancel_left heq)
      refine delimits_blockCharacters (Nat.zero_le 2) (hu.mono fun _ => .inl)
        (hv.mono fun _ => .inl) ?_
      rw [List.append_assoc, List.append_assoc]
      exact body
  | literalBlock =>
      have first : ∀ {s u : List Char}, '\n' ∉ s →
          Avoids (· = '\n') (s ++ (closing '\'' ++ u)) := by
        intro s u hs
        cases s with
        | nil => exact avoids_cons.2 (by decide)
        | cons c s => exact avoids_cons.2 fun hc => hs (hc ▸ List.mem_cons_self)
      simp only [inForm, List.append_assoc] at heq
      have body := opening_append_inj first first (List.append_cancel_left heq)
      exact literalBlock_append_inj h h' (hu.mono fun _ => .inr) (hv.mono fun _ => .inr) body

/-! ## Strings -/

/-- A string is told by its text, as long as no quote comes behind. -/
theorem delimits_string : Delimits (fun s => (Toml.string s).toList) (Avoids IsQuote) := by
  intro s s' u v hu hv heq
  simp only [Toml.string, String.toList_ofList] at heq
  have hs := Form.fits_of s.toList
  have hs' := Form.fits_of s'.toList
  have hform : Form.of s.toList = Form.of s'.toList := by
    rw [← quoteForm_inForm hs hu, heq, quoteForm_inForm hs' hv]
  rw [hform] at hs heq
  obtain ⟨hlist, huv⟩ := inForm_append_inj hs hs' hu hv heq
  exact ⟨String.toList_inj.1 hlist, huv⟩

/-- A string begins with a quote. -/
theorem avoids_string {P : Char → Prop} (hP : ∀ c, IsQuote c → ¬ P c) (s : String)
    (u : List Char) : Avoids P ((Toml.string s).toList ++ u) := by
  rw [Toml.string, String.toList_ofList]
  cases Form.of s.toList with
  | basic => exact avoids_cons.2 (hP _ (.inl rfl))
  | literal => exact avoids_cons.2 (hP _ (.inr rfl))
  | basicBlock => exact avoids_cons.2 (hP _ (.inl rfl))
  | literalBlock => exact avoids_cons.2 (hP _ (.inr rfl))

/-! ## Keys -/

/-- How the characters of a key are written. -/
inductive KeyText (s : List Char) : List Char → Prop where
  | bare : s ≠ [] → (∀ c ∈ s, isBare c = true) → KeyText s s
  | basic : KeyText s (basic s)
  | literal : '\'' ∉ s → KeyText s ('\'' :: (s ++ ['\'']))

theorem keyText (s : String) : KeyText s.toList (key s).toList := by
  unfold key
  simp only
  split
  · rename_i h
    exact .bare h.1 (List.all_eq_true.1 h.2)
  · split
    · rw [String.toList_ofList]
      exact .basic
    · split
      · rename_i h
        rw [String.toList_ofList]
        simp only [Bool.and_eq_true, Bool.not_eq_true', List.contains_eq_mem,
          decide_eq_false_iff_not] at h
        exact .literal h.2
      · rw [String.toList_ofList]
        exact .basic

/-- No bare key begins with a quote. -/
theorem not_isBare_of_isQuote (h : IsQuote c) : isBare c = false := by
  rcases h with rfl | rfl <;> decide

theorem KeyText.unique (h : KeyText s w) (h' : KeyText s' w')
    (hu : Avoids (fun c => isBare c = true) u) (hv : Avoids (fun c => isBare c = true) v)
    (heq : w ++ u = w' ++ v) : s = s' ∧ u = v := by
  -- What begins with a quote is no bare key.
  have quoted : ∀ {s u w : List Char} {q : Char}, s ≠ [] → (∀ c ∈ s, isBare c = true) →
      IsQuote q → s ++ u ≠ q :: w := by
    intro s u w q hne hs hq heq
    have havoids : Avoids IsQuote (s ++ u) := avoids_append hne fun c hc hquote =>
      Bool.false_ne_true ((not_isBare_of_isQuote hquote).symm.trans (hs c hc))
    rw [heq, avoids_cons] at havoids
    exact havoids hq
  cases h with
  | bare hne hs =>
      cases h' with
      | bare _ hs' => exact run_append_inj hs hs' hu hv heq
      | basic => exact absurd heq (quoted hne hs (.inl rfl))
      | literal _ => exact absurd heq (quoted hne hs (.inr rfl))
  | basic =>
      cases h' with
      | bare hne hs' => exact absurd heq.symm (quoted hne hs' (.inl rfl))
      | basic => exact delimits_basic trivial trivial heq
      | literal _ => exact absurd (List.cons.inj heq).1 (by decide)
  | literal hs =>
      cases h' with
      | bare hne hs' => exact absurd heq.symm (quoted hne hs' (.inr rfl))
      | basic => exact absurd (List.cons.inj heq).1 (by decide)
      | literal hs' =>
          simp only [List.cons_append, List.append_assoc, List.nil_append, List.cons.injEq,
            true_and] at heq
          exact literal_append_inj hs hs' heq

/-- A key is told by its text, as long as nothing of a bare key comes behind. -/
theorem delimits_key :
    Delimits (fun s => (key s).toList) (Avoids fun c => isBare c = true) := by
  intro s s' u v hu hv heq
  obtain ⟨hlist, huv⟩ := (keyText s).unique (keyText s') hu hv heq
  exact ⟨String.toList_inj.1 hlist, huv⟩

/-- A key begins with a quote or with something of a bare key. -/
theorem avoids_key {P : Char → Prop} (hP : ∀ c, IsQuote c ∨ isBare c = true → ¬ P c)
    (s : String) (u : List Char) : Avoids P ((key s).toList ++ u) := by
  have h := keyText s
  generalize (key s).toList = w at h ⊢
  cases h with
  | bare hne hs => exact avoids_append hne fun c hc => hP c (.inr (hs c hc))
  | basic => exact avoids_cons.2 (hP _ (.inl (.inl rfl)))
  | literal _ => exact avoids_cons.2 (hP _ (.inl (.inr rfl)))

end Toml
end Adventure
