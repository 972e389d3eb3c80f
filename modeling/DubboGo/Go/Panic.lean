import Mathlib

/-!
# Panics

The run-time panics of Go that the program can raise.  A computation that can panic is an `Except`.
-/

namespace DubboGo.Go

inductive RuntimeError where
  /-- A field or a method of a nil pointer or interface. -/
  | nilPointer
  /-- An index outside of a slice. -/
  | indexOutOfRange
  /-- An assignment to an entry in a nil map. -/
  | nilMap
  /-- A non-positive argument of `rand.Intn`. -/
  | invalidArgument
  deriving DecidableEq, Repr

/-- A sequence returns if both parts do. -/
theorem bind_eq_ok {ε α β : Type} {x : Except ε α} {f : α → Except ε β} {b : β}
    (h : x >>= f = .ok b) : ∃ a, x = .ok a ∧ f a = .ok b := by
  cases x with
  | error e => cases h
  | ok a => exact ⟨a, rfl, h⟩

end DubboGo.Go
