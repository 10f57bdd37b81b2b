/-
# The command line, group by group

An argument list falls into groups from left to right: `--config` takes the
argument behind it whatever that looks like, and every other argument is a
group of its own.  `Decides before g outcome` says which groups settle what
is asked for: a call for help, an option that is not known, a second
snapshot, and `--config` with nothing behind it.  Only a second snapshot has
to do with the groups before it.

What groups say that do not decide is `told`.  The settings are this when
the groups have been taken up: one group keeps it so (`Splits.step`), and
therefore any number of them (`Splits.parse_append`).  No part of it depends
on the order of the groups, but for the file names behind `--config`, of
which the last one counts (`told_of_perm`).

The main statement is `parse_groups`: the first group that decides settles
the matter, without one all groups together do, and groups that do not
decide may stand in any order that keeps the `--config` groups in theirs.
-/
import Adventure.CommandLine
import Mathlib.Data.List.Basic
import Mathlib.Data.List.Induction
import Mathlib.Logic.ExistsUnique

namespace Adventure
namespace CommandLine

/-! ## Groups -/

/-- Arguments that are taken together. -/
inductive Group where
  /-- `--config` and the file name behind it. -/
  | config (name : String)
  /-- `--config` with nothing behind it. -/
  | nameless
  /-- Any other argument. -/
  | single (argument : String)
deriving DecidableEq

/-- An argument that begins with a hyphen. -/
def Dashed (argument : String) : Prop :=
  argument.toList.head? = some '-'

instance (argument : String) : Decidable (Dashed argument) :=
  inferInstanceAs (Decidable (argument.toList.head? = some '-'))

namespace Group

/-- The arguments of a group. -/
def arguments : Group → List String
  | config name => ["--config", name]
  | nameless => ["--config"]
  | single argument => [argument]

/-- The options file that a group names. -/
def config? : Group → Option String
  | config name => some name
  | _ => none

/-- The snapshot that a group names. -/
def image? : Group → Option String
  | single argument => if Dashed argument then none else some argument
  | _ => none

/-- A group that others can stand behind. -/
def Whole : Group → Prop
  | config _ => True
  | nameless => False
  | single argument => argument ≠ "--config"

theorem image?_eq_some_iff {g : Group} {image : String} :
    g.image? = some image ↔ g = .single image ∧ ¬ Dashed image := by
  cases g with
  | config name => simp [image?]
  | nameless => simp [image?]
  | single argument =>
      by_cases hd : Dashed argument
      · simp only [image?, hd, if_true, reduceCtorEq, single.injEq, false_iff, not_and]
        intro heq
        exact fun hnot => hnot (heq ▸ hd)
      · simp only [image?, hd, if_false, Option.some.injEq, single.injEq]
        exact ⟨fun heq => ⟨heq, heq ▸ hd⟩, fun h => h.1⟩

end Group

/-- The options files that groups name. -/
def configs (gs : List Group) : List String :=
  gs.filterMap Group.config?

/-- The snapshots that groups name. -/
def images (gs : List Group) : List String :=
  gs.filterMap Group.image?

/-- What one more group names comes last. -/
theorem filterMap_concat (name? : Group → Option String) (gs : List Group) (g : Group) :
    (gs ++ [g]).filterMap name? = gs.filterMap name? ++ (name? g).toList := by
  rw [List.filterMap_append]
  cases h : name? g <;> simp [h]

theorem configs_concat (gs : List Group) (g : Group) :
    configs (gs ++ [g]) = configs gs ++ g.config?.toList :=
  filterMap_concat Group.config? gs g

theorem images_concat (gs : List Group) (g : Group) :
    images (gs ++ [g]) = images gs ++ g.image?.toList :=
  filterMap_concat Group.image? gs g

/-- The groups of an argument list. -/
inductive Splits : List String → List Group → Prop where
  | nil : Splits [] []
  | nameless : Splits ["--config"] [.nameless]
  | config {name : String} {rest : List String} {gs : List Group} :
      Splits rest gs → Splits ("--config" :: name :: rest) (.config name :: gs)
  | single {argument : String} {rest : List String} {gs : List Group} :
      argument ≠ "--config" → Splits rest gs → Splits (argument :: rest) (.single argument :: gs)

variable {arguments left : List String} {gs hs rest : List Group} {g : Group}
  {outcome : Except Refusal Request}

/-- Every argument list falls into groups. -/
theorem exists_splits : ∀ arguments : List String, ∃ gs, Splits arguments gs
  | [] => ⟨[], .nil⟩
  | [argument] => by
      by_cases hc : argument = "--config"
      · subst hc
        exact ⟨_, .nameless⟩
      · exact ⟨_, .single hc .nil⟩
  | argument :: name :: arguments => by
      by_cases hc : argument = "--config"
      · subst hc
        obtain ⟨gs, h⟩ := exists_splits arguments
        exact ⟨_, .config h⟩
      · obtain ⟨gs, h⟩ := exists_splits (name :: arguments)
        exact ⟨_, .single hc h⟩

/-- It falls into groups in one way. -/
theorem Splits.unique (hg : Splits arguments gs) (hh : Splits arguments hs) : gs = hs := by
  induction hg generalizing hs with
  | nil =>
      cases hh
      rfl
  | nameless =>
      cases hh with
      | nameless => rfl
      | single hne _ => exact absurd rfl hne
  | config _ ih =>
      cases hh with
      | config hrest => rw [ih hrest]
      | single hne _ => exact absurd rfl hne
  | single hne _ ih =>
      cases hh with
      | nameless => exact absurd rfl hne
      | config _ => exact absurd rfl hne
      | single _ hrest => rw [ih hrest]

/-- The arguments of the groups are the arguments. -/
theorem Splits.flatMap_arguments (h : Splits arguments gs) :
    gs.flatMap Group.arguments = arguments := by
  induction h with
  | nil => rfl
  | nameless => rfl
  | config _ ih =>
      rw [List.flatMap_cons, ih]
      rfl
  | single _ _ ih =>
      rw [List.flatMap_cons, ih]
      rfl

/-- A group has nothing behind it or is whole. -/
theorem Splits.nameless_or_whole (h : Splits arguments gs) :
    ∀ g ∈ gs, g = .nameless ∨ g.Whole := by
  induction h with
  | nil => simp
  | nameless => simp
  | config _ ih => exact List.forall_mem_cons.2 ⟨.inr trivial, ih⟩
  | single hne _ ih => exact List.forall_mem_cons.2 ⟨.inr hne, ih⟩

/-- Whole groups can be put in front of others. -/
theorem Splits.append (h : Splits left rest) (hgs : ∀ g ∈ gs, g.Whole) :
    Splits (gs.flatMap Group.arguments ++ left) (gs ++ rest) := by
  induction gs with
  | nil => exact h
  | cons g gs ih =>
      obtain ⟨hg, hgs⟩ := List.forall_mem_cons.1 hgs
      have behind := ih hgs
      cases g with
      | config name => exact .config behind
      | nameless => exact hg.elim
      | single argument => exact .single hg behind

/-! ## What groups decide -/

/-- The options that are known. -/
def known : List String :=
  ["--toml", "--config", "-h", "--help"]

theorem mem_known_iff {argument : String} : argument ∈ known ↔
    argument = "--toml" ∨ argument = "--config" ∨ argument = "-h" ∨ argument = "--help" := by
  simp [known]

/-- What begins with no hyphen is no option. -/
theorem not_known_of_not_dashed {argument : String} (hd : ¬ Dashed argument) :
    argument ∉ known := by
  have all : ∀ argument ∈ known, Dashed argument := by decide
  exact fun h => hd (all argument h)

/-- The group settles what is asked for behind the groups `before`, whatever
comes behind it. -/
inductive Decides (before : List Group) : Group → Except Refusal Request → Prop where
  | help {argument : String} : argument = "-h" ∨ argument = "--help" →
      Decides before (.single argument) (.ok .help)
  | unknown {argument : String} : Dashed argument → argument ∉ known →
      Decides before (.single argument) (.error (.unknownOption argument))
  | second {argument first : String} : ¬ Dashed argument → (images before).head? = some first →
      Decides before (.single argument) (.error (.secondImage argument first))
  | nameless : Decides before .nameless (.error .configWithoutName)

/-- No group decides. -/
def Undecided (gs : List Group) : Prop :=
  ∀ before g after outcome, gs = before ++ g :: after → ¬ Decides before g outcome

theorem undecided_nil : Undecided [] := by
  intro before g after outcome hgs
  simp at hgs

/-- One more group. -/
theorem undecided_concat_iff :
    Undecided (gs ++ [g]) ↔ Undecided gs ∧ ∀ outcome, ¬ Decides gs g outcome := by
  refine ⟨?_, ?_⟩
  · intro h
    refine ⟨?_, fun outcome => h gs g [] outcome rfl⟩
    intro before x after outcome hgs
    exact h before x (after ++ [g]) outcome (by rw [hgs, List.append_assoc, List.cons_append])
  · intro h before x after outcome hgs
    rcases List.eq_nil_or_concat' after with rfl | ⟨after, y, rfl⟩
    · obtain ⟨rfl, rfl⟩ := List.append_singleton_inj.1 hgs
      exact h.2 outcome
    · rw [← List.cons_append, ← List.append_assoc] at hgs
      exact h.1 before x after outcome (List.append_singleton_inj.1 hgs).1

/-- Groups are undecided, or one of them is the first to decide. -/
theorem undecided_or_decides (gs : List Group) :
    Undecided gs ∨ ∃ before g after outcome, gs = before ++ g :: after ∧
      Undecided before ∧ Decides before g outcome := by
  induction gs using List.reverseRecOn with
  | nil => exact .inl undecided_nil
  | append_singleton gs g ih =>
      rcases ih with hu | ⟨before, x, after, outcome, rfl, hu, hd⟩
      · by_cases hg : ∃ outcome, Decides gs g outcome
        · obtain ⟨outcome, hd⟩ := hg
          exact .inr ⟨gs, g, [], outcome, rfl, hu, hd⟩
        · exact .inl (undecided_concat_iff.2 ⟨hu, not_exists.1 hg⟩)
      · refine .inr ⟨before, x, after ++ [g], outcome, ?_, hu, hd⟩
        rw [List.append_assoc, List.cons_append]

/-- What decides with nothing before it decides everywhere. -/
theorem Decides.of_nil (h : Decides [] g outcome) (gs : List Group) : Decides gs g outcome := by
  cases h with
  | help ha => exact .help ha
  | unknown hd hk => exact .unknown hd hk
  | second _ hfirst => cases hfirst
  | nameless => exact .nameless

/-- A group decides alone, or it is the second one to name a snapshot. -/
theorem exists_decides_iff :
    (∃ outcome, Decides gs g outcome) ↔
      (∃ outcome, Decides [] g outcome) ∨ ∃ image, g.image? = some image ∧ images gs ≠ [] := by
  refine ⟨?_, ?_⟩
  · intro h
    obtain ⟨outcome, hd⟩ := h
    cases hd with
    | help ha => exact .inl ⟨_, .help ha⟩
    | unknown hd hk => exact .inl ⟨_, .unknown hd hk⟩
    | second hd hfirst =>
        refine .inr ⟨_, Group.image?_eq_some_iff.2 ⟨rfl, hd⟩, ?_⟩
        intro hnil
        rw [hnil] at hfirst
        cases hfirst
    | nameless => exact .inl ⟨_, .nameless⟩
  · intro h
    rcases h with ⟨outcome, hd⟩ | ⟨image, himage, hgs⟩
    · exact ⟨outcome, hd.of_nil gs⟩
    · obtain ⟨rfl, hd⟩ := Group.image?_eq_some_iff.1 himage
      exact ⟨_, .second hd (List.head?_eq_some_head hgs)⟩

/-- Groups are undecided when none of them decides alone and no two of them
name a snapshot. -/
theorem undecided_iff :
    Undecided gs ↔ (∀ g ∈ gs, ¬ ∃ outcome, Decides [] g outcome) ∧ (images gs).length ≤ 1 := by
  induction gs using List.reverseRecOn with
  | nil => simp [undecided_nil, images]
  | append_singleton gs g ih =>
      -- One more snapshot is one too many exactly where there was one before.
      have named : (images gs).length ≤ 1 ∧ (¬ ∃ image, g.image? = some image ∧ images gs ≠ []) ↔
          (images gs).length + g.image?.toList.length ≤ 1 := by
        cases g.image? with
        | none => simp
        | some image =>
            have hnil := @List.length_eq_zero_iff _ (images gs)
            simp only [Option.some.injEq, exists_and_right, exists_eq', true_and, ne_eq, not_not,
              Option.toList_some, List.length_singleton, ← hnil]
            omega
      rw [undecided_concat_iff, ← not_exists, exists_decides_iff, ih, images_concat,
        List.forall_mem_append, List.forall_mem_singleton, List.length_append, ← named, not_or]
      tauto

/-! ## What groups say -/

/-- What groups say that do not decide. -/
def told (gs : List Group) : Settings where
  asToml := decide (Group.single "--toml" ∈ gs)
  config := (configs gs).getLast?
  image := (images gs).head?

/-- One more group: a later options file and an earlier snapshot count. -/
theorem told_concat (gs : List Group) (g : Group) : told (gs ++ [g]) =
    { asToml := (told gs).asToml || decide (Group.single "--toml" = g)
      config := g.config?.or (told gs).config
      image := (told gs).image.or g.image? } := by
  simp only [told, configs_concat, images_concat, List.mem_append, List.mem_singleton,
    Bool.decide_or, List.getLast?_append, List.head?_append]
  congr 1
  · cases g.config? <;> rfl
  · cases g.image? <;> rfl

/-- Undecided groups name at most one snapshot. -/
theorem Undecided.images_eq {image : String} (hu : Undecided gs) (h : image ∈ images gs) :
    images gs = [image] := by
  have hlength := (undecided_iff.1 hu).2
  cases himages : images gs with
  | nil =>
      rw [himages] at h
      cases h
  | cons first others =>
      rw [himages, List.length_cons] at hlength
      have hnil : others = [] := List.length_eq_zero_iff.1 (by omega)
      rw [himages, hnil, List.mem_singleton] at h
      rw [hnil, h]

/-- In any order that keeps the options files in theirs, undecided groups say
the same. -/
theorem told_of_perm (hu : Undecided gs) (hp : gs.Perm hs) (hc : configs gs = configs hs) :
    told gs = told hs := by
  have hperm : (images gs).Perm (images hs) := hp.filterMap Group.image?
  have himages : images gs = images hs := by
    by_cases hnil : images gs = []
    · rw [hnil] at hperm ⊢
      exact hperm.nil_eq
    · obtain ⟨image, himage⟩ := List.exists_mem_of_ne_nil _ hnil
      rw [hu.images_eq himage] at hperm ⊢
      exact List.singleton_perm.1 hperm
  simp only [told, hc, himages, hp.mem_iff]

theorem Undecided.perm (hu : Undecided gs) (hp : gs.Perm hs) : Undecided hs := by
  obtain ⟨halone, himages⟩ := undecided_iff.1 hu
  refine undecided_iff.2 ⟨fun g hg => halone g (hp.mem_iff.2 hg), ?_⟩
  rwa [images, ← (hp.filterMap Group.image?).length_eq]

/-- The groups of an argument list are whole where none decides. -/
theorem Splits.whole (h : Splits arguments (gs ++ rest)) (hu : Undecided gs) :
    ∀ g ∈ gs, g.Whole := by
  intro g hg
  rcases h.nameless_or_whole g (List.mem_append_left rest hg) with rfl | hwhole
  · exact absurd ⟨_, .nameless⟩ ((undecided_iff.1 hu).1 _ hg)
  · exact hwhole

/-! ## Group by group -/

theorem isOption_iff {argument : String} : isOption argument = true ↔ Dashed argument := by
  simp [isOption, Dashed]

section OneArgument

variable {s : Settings} {argument first : String}

theorem parseFrom_toml :
    parseFrom s ("--toml" :: left) = parseFrom { s with asToml := true } left := by
  rw [parseFrom.eq_def]
  simp only [if_true]

theorem parseFrom_config {name : String} :
    parseFrom s ("--config" :: name :: left) = parseFrom { s with config := some name } left := by
  rw [parseFrom.eq_def]
  simp

theorem parseFrom_help (ha : argument = "-h" ∨ argument = "--help") :
    parseFrom s (argument :: left) = .ok .help := by
  rw [parseFrom.eq_def]
  rcases ha with rfl | rfl <;> simp

theorem parseFrom_unknown (hd : Dashed argument) (hk : argument ∉ known) :
    parseFrom s (argument :: left) = .error (.unknownOption argument) := by
  simp only [mem_known_iff, not_or] at hk
  rw [parseFrom.eq_def]
  simp only [hk, isOption_iff.2 hd, or_self, if_false, if_true]

theorem parseFrom_second (hd : ¬ Dashed argument) (hfirst : s.image = some first) :
    parseFrom s (argument :: left) = .error (.secondImage argument first) := by
  have hk := not_known_of_not_dashed hd
  simp only [mem_known_iff, not_or] at hk
  rw [parseFrom.eq_def]
  simp only [hk, isOption_iff, hd, or_self, if_false, hfirst]

theorem parseFrom_image (hd : ¬ Dashed argument) (hnone : s.image = none) :
    parseFrom s (argument :: left) = parseFrom { s with image := some argument } left := by
  have hk := not_known_of_not_dashed hd
  simp only [mem_known_iff, not_or] at hk
  rw [parseFrom.eq_def]
  simp only [hk, isOption_iff, hd, or_self, if_false, hnone]

end OneArgument

/-- A group that decides settles the matter. -/
theorem Splits.settle (h : Splits left (g :: rest)) (hg : Decides gs g outcome) :
    parseFrom (told gs) left = outcome := by
  cases hg with
  | help ha =>
      cases h
      exact parseFrom_help ha
  | unknown hd hk =>
      cases h
      exact parseFrom_unknown hd hk
  | second hd hfirst =>
      cases h
      exact parseFrom_second hd hfirst
  | nameless =>
      cases h
      rfl

/-- A group that does not is taken up. -/
theorem Splits.step (h : Splits left (g :: rest)) (hg : ∀ outcome, ¬ Decides gs g outcome) :
    ∃ behind, Splits behind rest ∧
      parseFrom (told gs) left = parseFrom (told (gs ++ [g])) behind := by
  rw [told_concat]
  cases h with
  | nameless => exact absurd .nameless (hg _)
  | @config name behind _ hrest =>
      refine ⟨behind, hrest, ?_⟩
      rw [parseFrom_config]
      simp [Group.config?, Group.image?]
  | @single argument behind _ hne hrest =>
      refine ⟨behind, hrest, ?_⟩
      by_cases hd : Dashed argument
      · -- Of the known options only `--toml` is left.
        have hknown : argument ∈ known := by_contra fun hk => hg _ (.unknown hd hk)
        have htoml : argument = "--toml" := by
          rcases mem_known_iff.1 hknown with htoml | hconfig | hhelp
          · exact htoml
          · exact absurd hconfig hne
          · exact absurd (.help hhelp) (hg _)
        subst htoml
        rw [parseFrom_toml]
        simp [Group.config?, Group.image?, hd]
      · have hnone : (told gs).image = none := by
          cases hfirst : (told gs).image with
          | none => rfl
          | some first => exact absurd (.second hd hfirst) (hg _)
        have htoml : "--toml" ≠ argument := fun heq => hd (heq ▸ by decide)
        rw [parseFrom_image hd hnone, hnone]
        simp [Group.config?, Group.image?, hd, htoml]

/-- So are any number of them. -/
theorem Splits.parse_append (h : Splits arguments (gs ++ rest)) (hu : Undecided gs) :
    ∃ left, Splits left rest ∧ parse arguments = parseFrom (told gs) left := by
  induction gs using List.reverseRecOn generalizing rest with
  | nil => exact ⟨arguments, h, rfl⟩
  | append_singleton gs g ih =>
      obtain ⟨hu, hg⟩ := undecided_concat_iff.1 hu
      rw [List.append_assoc] at h
      obtain ⟨left, hleft, hparse⟩ := ih h hu
      obtain ⟨behind, hbehind, hstep⟩ := hleft.step hg
      exact ⟨behind, hbehind, hparse.trans hstep⟩

/-- Where no group decides, all of them together say what is asked for. -/
theorem Splits.parse_of_undecided (h : Splits arguments gs) (hu : Undecided gs) :
    parse arguments = .ok (told gs).request := by
  rw [← List.append_nil gs] at h
  obtain ⟨left, hleft, hparse⟩ := h.parse_append hu
  cases hleft
  exact hparse

/-- Undecided groups may stand in any order that keeps the options files in
theirs, whatever comes behind them. -/
theorem Splits.reorder (h : Splits arguments (gs ++ rest)) (hu : Undecided gs)
    (hp : gs.Perm hs) (hc : configs gs = configs hs) :
    Splits ((hs ++ rest).flatMap Group.arguments) (hs ++ rest) ∧
      parse ((hs ++ rest).flatMap Group.arguments) = parse arguments := by
  obtain ⟨left, hleft, hparse⟩ := h.parse_append hu
  have hwhole : ∀ g ∈ hs, g.Whole := fun g hg => h.whole hu g (hp.mem_iff.2 hg)
  have hsplits : Splits ((hs ++ rest).flatMap Group.arguments) (hs ++ rest) := by
    rw [List.flatMap_append, hleft.flatMap_arguments]
    exact hleft.append hwhole
  obtain ⟨left', hleft', hparse'⟩ := hsplits.parse_append (hu.perm hp)
  have hsame : left' = left := by
    rw [← hleft'.flatMap_arguments, hleft.flatMap_arguments]
  refine ⟨hsplits, ?_⟩
  rw [hparse', hparse, hsame, told_of_perm hu hp hc]

/-! ## The whole list -/

/-- The arguments that a refusal is about. -/
def Refusal.subjects : Refusal → List String
  | .configWithoutName => []
  | .secondImage second first => [second, first]
  | .unknownOption argument => [argument]

/-- A refusal shows the arguments that it is about. -/
theorem Refusal.subjects_shown (why : Refusal) :
    ∀ argument ∈ why.subjects, argument.toList <:+: why.message.toList := by
  cases why with
  | configWithoutName => simp [subjects]
  | secondImage second first =>
      intro argument ha
      show _ <:+: ("Unexpected argument: " ++ second ++ " (already dumping " ++ first ++ ")").toList
      simp only [String.toList_append]
      rcases List.mem_pair.1 ha with rfl | rfl
      · rw [List.append_assoc, List.append_assoc]
        exact List.infix_append _ _ _
      · exact List.infix_append _ _ _
  | unknownOption subject =>
      intro argument ha
      obtain rfl := List.mem_singleton.1 ha
      show _ <:+: ("Unknown option: " ++ argument).toList
      rw [String.toList_append]
      exact (List.suffix_append _ _).isInfix

/-- What parsing an argument list comes to. -/
structure ParsesGroups (arguments : List String) : Prop where
  /-- The arguments fall into groups in one way. -/
  groups : ∃! gs, Splits arguments gs
  /-- One group is the first to decide, or none does. -/
  either : ∀ gs, Splits arguments gs →
    Undecided gs ∨ ∃ before g after outcome, gs = before ++ g :: after ∧
      Undecided before ∧ Decides before g outcome
  /-- The first group to decide settles the matter. -/
  decided : ∀ before g after outcome, Splits arguments (before ++ g :: after) →
    Undecided before → Decides before g outcome → parse arguments = outcome
  /-- Without one and without a snapshot, help is asked for. -/
  help : ∀ gs, Splits arguments gs → Undecided gs → images gs = [] →
    parse arguments = .ok .help
  /-- Without one, a snapshot that is named is dumped: as TOML if that is
  said anywhere, and with the options file that is named last. -/
  dump : ∀ gs image, Splits arguments gs → Undecided gs → image ∈ images gs →
    parse arguments =
      .ok (.dump (decide (Group.single "--toml" ∈ gs)) (configs gs).getLast? image)
  /-- Groups that do not decide ask for the same in any order that keeps the
  options files in theirs. -/
  reordered : ∀ gs hs rest, Splits arguments (gs ++ rest) → Undecided gs → gs.Perm hs →
    configs gs = configs hs →
      Splits ((hs ++ rest).flatMap Group.arguments) (hs ++ rest) ∧
        parse ((hs ++ rest).flatMap Group.arguments) = parse arguments
  /-- A refusal shows the arguments that it is about. -/
  shown : ∀ why, parse arguments = .error why →
    ∀ argument ∈ why.subjects, argument.toList <:+: why.message.toList

/-- Every command line is parsed group by group, behind the program's name. -/
theorem parse_groups (line : List String) : ParsesGroups line.tail where
  groups := by
    obtain ⟨gs, h⟩ := exists_splits line.tail
    exact ⟨gs, h, fun hs hh => hh.unique h⟩
  either := fun gs _ => undecided_or_decides gs
  decided := by
    intro before g after outcome h hu hd
    obtain ⟨left, hleft, hparse⟩ := h.parse_append hu
    rw [hparse, hleft.settle hd]
  help := by
    intro gs h hu hnone
    rw [h.parse_of_undecided hu]
    simp [told, Settings.request, hnone]
  dump := by
    intro gs image h hu himage
    rw [h.parse_of_undecided hu]
    simp [told, Settings.request, hu.images_eq himage]
  reordered := fun gs hs rest h hu hp hc => h.reorder hu hp hc
  shown := fun why _ => why.subjects_shown

/-- What stands behind `--config` is a file name even where it looks like a call for help. -/
example : parse ["g", "--config", "--help", "--toml"] = .ok (.dump true (some "--help") "g") := by
  decide

end CommandLine
end Adventure
