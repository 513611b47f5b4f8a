import Mathlib.Algebra.Order.Ring.Int

/-! # Checks in sequence

A validator runs one check after another and stops at the first that fails. `ensure` is such a
check; the lemmas take a successful run apart, one step at a time. -/

/-- Go on if the condition holds. -/
def ensure (condition : Bool) (message : String) : Except String Unit :=
  if condition then .ok () else .error message

namespace Except

variable {ε α β : Type}

theorem ok_bind (a : α) (f : α → Except ε β) : (Except.ok a >>= f) = f a := rfl

variable {ε' : Type}

theorem mapError_ok (a : α) (f : ε → ε') : (Except.ok a).mapError f = .ok a := rfl

variable {x : Except ε α}

/-- A sequence succeeds if both parts do. -/
theorem bind_eq_ok {f : α → Except ε β} {b : β} :
    (x >>= f) = .ok b ↔ ∃ a, x = .ok a ∧ f a = .ok b := by
  cases x with
  | error => simp [bind, Except.bind]
  | ok => simp [bind, Except.bind]

theorem mapError_eq_ok {f : ε → ε'} {a : α} : x.mapError f = .ok a ↔ x = .ok a := by
  cases x with
  | error => simp [Except.mapError]
  | ok => simp [Except.mapError]

theorem map_eq_ok {f : α → β} {b : β} : x.map f = .ok b ↔ ∃ a, x = .ok a ∧ f a = b := by
  cases x with
  | error => simp [Except.map]
  | ok => simp [Except.map]

end Except

variable {condition : Bool} {message : String}

@[simp] theorem ensure_eq_ok {u : Unit} : ensure condition message = .ok u ↔ condition := by
  unfold ensure
  split
  next h => simp [h]
  next h => simp [h]

variable {β : Type}

/-- A check in front of a sequence. -/
theorem ensure_bind_eq_ok {f : Unit → Except String β} {b : β} :
    (ensure condition message >>= f) = .ok b ↔ condition ∧ f () = .ok b := by
  rw [Except.bind_eq_ok]
  constructor
  · rintro ⟨u, hu, hf⟩
    exact ⟨ensure_eq_ok.mp hu, hf⟩
  · rintro ⟨hc, hf⟩
    exact ⟨(), ensure_eq_ok.mpr hc, hf⟩

theorem ensure_bind (h : condition) (message : String) (f : Unit → Except String β) :
    (ensure condition message >>= f) = f () := by
  rw [ensure, if_pos h]
  rfl
