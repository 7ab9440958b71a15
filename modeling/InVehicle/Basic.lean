import Mathlib.Data.Nat.Notation

/-! Values that the modules share. -/

set_option autoImplicit false

namespace InVehicle

abbrev Bytes := List UInt8

inductive PyError where
  | attributeError
  | keyError
  | osError
  | typeError
  | valueError
  deriving DecidableEq, Repr

theorem except_bind_eq_ok {ε α β : Type} {m : Except ε α} {f : α → Except ε β} {b : β} :
    m >>= f = .ok b ↔ ∃ a, m = .ok a ∧ f a = .ok b := by
  cases m with
  | error e => exact ⟨(nomatch ·), fun ⟨_, h, _⟩ => nomatch h⟩
  | ok a =>
    constructor
    · intro h
      exact ⟨a, rfl, h⟩
    · rintro ⟨a', ha, hf⟩
      cases ha
      exact hf

theorem except_bind_returns_iff {ε α β : Type} {m : Except ε α} {f : α → Except ε β} :
    (∃ b, m >>= f = .ok b) ↔ ∃ a, m = .ok a ∧ ∃ b, f a = .ok b := by
  simp only [except_bind_eq_ok]
  exact ⟨fun ⟨b, a, hm, hf⟩ => ⟨a, hm, b, hf⟩, fun ⟨a, hm, b, hf⟩ => ⟨b, a, hm, hf⟩⟩

end InVehicle
