/-
What work comes to that may be given up: a result or an error, as long as
it runs to its end. Work that is given up leaves neither, and whatever
waits for it is given up too.
-/

namespace RelAlgebra

/-- How an attempt ends. -/
inductive Attempt (ε α : Type) where
  | ok (a : α)
  | error (e : ε)
  /-- It was broken off, with nothing to show. -/
  | gaveUp

namespace Attempt

variable {ε ε' α β : Type}

/-- The end of work that cannot be given up. -/
def ofExcept : Except ε α → Attempt ε α
  | .ok a => .ok a
  | .error e => .error e

instance : Monad (Attempt ε) where
  pure := .ok
  bind
    | .ok a, f => f a
    | .error e, _ => .error e
    | .gaveUp, _ => .gaveUp

/-- The attempt with its error told in other terms. -/
def mapError (f : ε → ε') : Attempt ε α → Attempt ε' α
  | .ok a => .ok a
  | .error e => .error (f e)
  | .gaveUp => .gaveUp

def isGaveUp : Attempt ε α → Bool
  | .gaveUp => true
  | _ => false

theorem isGaveUp_iff {x : Attempt ε α} : x.isGaveUp = true ↔ x = .gaveUp := by
  cases x <;> simp [isGaveUp]

/-- What comes in two steps comes if both do. -/
theorem bind_eq_ok_iff {x : Attempt ε α} {f : α → Attempt ε β} {b : β} :
    x >>= f = .ok b ↔ ∃ a, x = .ok a ∧ f a = .ok b := by
  cases x with
  | ok a => exact ⟨fun h => ⟨a, rfl, h⟩, fun ⟨_, ha, h⟩ => by cases ha; exact h⟩
  | error e => exact iff_of_false nofun nofun
  | gaveUp => exact iff_of_false nofun nofun

theorem mapError_eq_ok_iff {f : ε → ε'} {x : Attempt ε α} {a : α} :
    x.mapError f = .ok a ↔ x = .ok a := by
  cases x <;> simp [mapError]

theorem ofExcept_eq_ok_iff {x : Except ε α} {a : α} :
    ofExcept x = .ok a ↔ x = .ok a := by
  cases x <;> simp [ofExcept]

theorem ofExcept_eq_error_iff {x : Except ε α} {e : ε} :
    ofExcept x = .error e ↔ x = .error e := by
  cases x <;> simp [ofExcept]

end Attempt

end RelAlgebra
