/-
# Readings

A `Reading` is the whole outcome of reading something from a snapshot: the
value or the fault, the events recorded on the way, and the reach, which is
the greatest address that was formed by adding to another one.  Events and
reach are kept also when the reading fails.

Reading one thing after another puts the events one after another, takes the
greater reach, and stops at the first fault.  A reading is a value and not a
procedure: it depends on nothing but the snapshot and the place it starts at.
-/
import Adventure.Event
import Adventure.Fault

namespace Adventure

/-- What reading something came to. -/
structure Reading (α : Type) where
  result : Except Fault α
  events : List Event
  reach : Nat

namespace Reading

variable {α β : Type}

/-- A value for which nothing has to be read. -/
def done (a : α) : Reading α :=
  ⟨.ok a, [], 0⟩

/-- A result that needed no reading. -/
def settled (r : Except Fault α) : Reading α :=
  ⟨r, [], 0⟩

/-- An event. -/
def record (e : Event) : Reading Unit :=
  ⟨.ok (), [e], 0⟩

/-- The same outcome after other events and with another reach. -/
def after (events : List Event) (reach : Nat) (r : Reading α) : Reading α :=
  ⟨r.result, events ++ r.events, max reach r.reach⟩

/-- One reading after another. -/
def andThen (r : Reading α) (next : α → Reading β) : Reading β :=
  match r with
  | ⟨.ok a, events, reach⟩ => (next a).after events reach
  | ⟨.error f, events, reach⟩ => ⟨.error f, events, reach⟩

instance : Monad Reading where
  pure := done
  bind := andThen

/-! ## The parts of a composed reading -/

@[simp] theorem pure_eq (a : α) : (pure a : Reading α) = ⟨.ok a, [], 0⟩ := rfl

theorem bind_ok (a : α) (events : List Event) (reach : Nat) (next : α → Reading β) :
    ((⟨.ok a, events, reach⟩ : Reading α) >>= next) = (next a).after events reach := rfl

theorem bind_error (f : Fault) (events : List Event) (reach : Nat) (next : α → Reading β) :
    ((⟨.error f, events, reach⟩ : Reading α) >>= next) = ⟨.error f, events, reach⟩ := rfl

/-- The result of a composed reading is the composition of the results. -/
theorem result_bind (r : Reading α) (next : α → Reading β) :
    (r >>= next).result = r.result >>= fun a => (next a).result := by
  rcases r with ⟨_ | _, _, _⟩ <;> rfl

theorem after_nil (r : Reading α) : r.after [] 0 = r := by
  simp [after]

theorem after_after (r : Reading α) (es fs : List Event) (m n : Nat) :
    (r.after es m).after fs n = r.after (fs ++ es) (max n m) := by
  simp [after, Nat.max_assoc]

/-- What came before a composed reading came before its first part. -/
theorem after_bind (r : Reading α) (next : α → Reading β) (es : List Event) (n : Nat) :
    r.after es n >>= next = (r >>= next).after es n := by
  obtain ⟨result, events, reach⟩ := r
  cases result with
  | error f => rfl
  | ok a =>
      change (next a).after (es ++ events) (max n reach) = _
      rw [bind_ok, after_after]

/-- Readings in a row may be grouped in any way. -/
theorem bind_assoc {γ : Type} (r : Reading α) (f : α → Reading β) (g : β → Reading γ) :
    r >>= f >>= g = r >>= fun a => f a >>= g := by
  obtain ⟨result, events, reach⟩ := r
  cases result with
  | error e => rfl
  | ok a =>
      rw [bind_ok, bind_ok]
      exact after_bind (f a) g events reach

instance : LawfulMonad Reading := LawfulMonad.mk' Reading
  (by
    intro α r
    obtain ⟨_ | _, events, reach⟩ := r
    · rfl
    · change (pure _ : Reading α).after events reach = _
      simp [after])
  (by
    intro α β a next
    exact after_nil (next a))
  (by
    intro α β γ r f g
    exact bind_assoc r f g)

end Reading
end Adventure
