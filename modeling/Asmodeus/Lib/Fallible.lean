namespace Fallible

variable {ε : Type u} {α β : Type v}

/-- A sequence that succeeds is two steps that succeed. -/
theorem bind_ok {x : Except ε α} {f : α → Except ε β} {b : β} (h : (x >>= f) = .ok b) :
    ∃ a, x = .ok a ∧ f a = .ok b := by
  cases x with
  | error e => cases h
  | ok a => exact ⟨a, rfl, h⟩

end Fallible
