/-
# What an options file chooses

The root table of an options file settles two numbers, each by a key of its
own.  `Sets` says which number a key settles: that of its integer, or the
fallback where the table has no such key.  `Spoilt` says that a key settles
none, because what the table has under it is no integer of the range.  Other
keys play no part.

The main statements are `ofToml_eq_ok_iff` and `ofToml_eq_error_iff`: a text
chooses what its table settles, and it is refused when it is not TOML or when
its table has one of the two keys spoilt.
-/
import Adventure.Options

namespace Adventure
namespace Options

/-- The table settles the number of a key, which may be at most `limit`. -/
inductive Sets (root : Toml.Entries) (key : String) (limit fallback : Nat) : Nat → Prop where
  | unset : root.lookup key = none → Sets root key limit fallback fallback
  | written {n : Nat} : root.lookup key = some (.leaf (.integer n)) → n ≤ limit →
      Sets root key limit fallback n

/-- The table has something else under a key than an integer from 0 to `limit`. -/
def Spoilt (root : Toml.Entries) (key : String) (limit : Nat) : Prop :=
  ∃ node, root.lookup key = some node ∧ ∀ n : Nat, n ≤ limit → node ≠ .leaf (.integer n)

/-- The table chooses the options: an offset that a signed word can hold, and a byte. -/
structure Chooses (root : Toml.Entries) (o : Options) : Prop where
  searchStart : Sets root "signature_search_start" 0x7fffffffffffffff 16384 o.searchStart
  version : Sets root "database_version" 255 0 o.version.toNat

/-- The table chooses none. -/
def Refused (root : Toml.Entries) : Prop :=
  Spoilt root "signature_search_start" 0x7fffffffffffffff ∨ Spoilt root "database_version" 255

variable {root : Toml.Entries} {key text : String} {limit fallback n : Nat} {o : Options}
  {f : Fault}

/-! ## One setting -/

theorem setting_eq_some_iff :
    setting root key limit fallback = some n ↔ Sets root key limit fallback n := by
  refine ⟨?_, ?_⟩
  · intro h
    unfold setting at h
    split at h
    · rename_i hunset
      cases h
      exact .unset hunset
    · rename_i i hwritten
      split at h
      · rename_i hrange
        cases h
        rw [← Int.toNat_of_nonneg hrange.1] at hwritten
        exact .written hwritten (Int.toNat_le.2 hrange.2)
      · cases h
    · cases h
  · intro h
    cases h with
    | unset hunset => rw [setting, hunset]
    | written hwritten hle =>
        rw [setting, hwritten]
        exact if_pos ⟨Int.natCast_nonneg n, Int.ofNat_le.2 hle⟩

theorem setting_eq_none_iff (fallback : Nat) :
    setting root key limit fallback = none ↔ Spoilt root key limit := by
  rw [Option.eq_none_iff_forall_ne_some]
  simp only [ne_eq, setting_eq_some_iff]
  refine ⟨?_, ?_⟩
  · intro h
    cases hlookup : root.lookup key with
    | none => exact absurd (.unset hlookup) (h fallback)
    | some node =>
        refine ⟨node, hlookup, ?_⟩
        intro n hle hnode
        rw [hnode] at hlookup
        exact h n (.written hlookup hle)
  · intro h n hsets
    obtain ⟨node, hlookup, hnode⟩ := h
    cases hsets with
    | unset hunset =>
        rw [hlookup] at hunset
        cases hunset
    | written hwritten hle =>
        rw [hlookup] at hwritten
        exact hnode n hle (Option.some.inj hwritten)

/-- Settings stay in their range, as long as the fallback does. -/
theorem Sets.le (h : Sets root key limit fallback n) (hfallback : fallback ≤ limit) :
    n ≤ limit := by
  cases h with
  | unset => exact hfallback
  | written _ hle => exact hle

/-! ## A whole file -/

theorem ofEntries_eq_some_iff : ofEntries root = some o ↔ Chooses root o := by
  simp only [ofEntries, Option.bind_eq_bind, Option.bind_eq_some_iff, setting_eq_some_iff]
  refine ⟨?_, ?_⟩
  · intro h
    obtain ⟨start, hstart, version, hversion, h⟩ := h
    cases h
    have hle : version ≤ 255 := hversion.le (Nat.zero_le 255)
    have hbyte : (UInt8.ofNat version).toNat = version :=
      UInt8.toNat_ofNat_of_lt' (Nat.lt_succ_of_le hle)
    refine ⟨hstart, ?_⟩
    show Sets root "database_version" 255 0 (UInt8.ofNat version).toNat
    rw [hbyte]
    exact hversion
  · intro h
    refine ⟨_, h.searchStart, _, h.version, ?_⟩
    rw [UInt8.ofNat_toNat]
    rfl

theorem ofEntries_eq_none_iff : ofEntries root = none ↔ Refused root := by
  rw [Refused, ← setting_eq_none_iff default.searchStart,
    ← setting_eq_none_iff default.version.toNat]
  show _ ↔ setting root "signature_search_start" (Nat.pow 2 63 - 1) default.searchStart = none ∨ _
  unfold ofEntries
  cases setting root "signature_search_start" (Nat.pow 2 63 - 1) default.searchStart with
  | none => simp
  | some start =>
      cases setting root "database_version" 255 default.version.toNat <;> simp

/-- A text chooses the options that its table chooses. -/
theorem ofToml_eq_ok_iff :
    ofToml text = .ok o ↔ ∃ root, Toml.read? text = some root ∧ Chooses root o := by
  simp only [← ofEntries_eq_some_iff, ← Option.bind_eq_some_iff]
  unfold ofToml
  cases (Toml.read? text).bind ofEntries <;> simp

/-- A text is refused when it is not TOML, or its table chooses no options. -/
theorem ofToml_eq_error_iff :
    ofToml text = .error f ↔ f = .optionsRejected ∧
      (Toml.read? text = none ∨ ∃ root, Toml.read? text = some root ∧ Refused root) := by
  unfold ofToml
  cases hread : Toml.read? text with
  | none => simp [eq_comm]
  | some root =>
      simp only [reduceCtorEq, false_or, Option.some.injEq, exists_eq_left',
        ← ofEntries_eq_none_iff]
      cases h : ofEntries root <;> simp [h, eq_comm]

/-- An empty file chooses the defaults. -/
example : (ofToml "").toOption = some ⟨16384, 0⟩ := by decide +kernel

end Options
end Adventure
