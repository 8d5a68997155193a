import Mathlib.Data.List.Basic

namespace Chunks

/-- The chunks of two, without a last element that is alone. -/
def pairs {α : Type} : List α → List (α × α)
  | first :: second :: rest => (first, second) :: pairs rest
  | _ => []

/-- A list that holds no chunk has at most one element. -/
theorem short_cases {α : Type} {l : List α} (h : ∀ first second rest, l = first :: second :: rest → False) :
    l = [] ∨ ∃ x, l = [x] := by
  match l, h with
  | [], _ => exact Or.inl rfl
  | [x], _ => exact Or.inr ⟨x, rfl⟩
  | first :: second :: rest, h => exact (h first second rest rfl).elim

theorem pairs_map {α β : Type} (f : α → β) (l : List α) :
    pairs (l.map f) = (pairs l).map fun pair => (f pair.1, f pair.2) := by
  fun_induction pairs l with
  | case1 first second rest ih => rw [List.map_cons, List.map_cons, pairs, ih, List.map_cons]
  | case2 l hshort =>
    obtain rfl | ⟨x, rfl⟩ := short_cases hshort <;> rfl

theorem pairs_length {α : Type} (l : List α) : (pairs l).length = l.length / 2 := by
  fun_induction pairs l with
  | case1 first second rest ih =>
    rw [List.length_cons, List.length_cons, List.length_cons, ih]
    omega
  | case2 l hshort =>
    obtain rfl | ⟨x, rfl⟩ := short_cases hshort <;> simp

/-- What holds of both elements of every chunk holds of every element. -/
theorem forall_pairs {α : Type} (p : α → Prop) (l : List α) (heven : l.length % 2 = 0) :
    (∀ pair ∈ pairs l, p pair.1 ∧ p pair.2) ↔ ∀ x ∈ l, p x := by
  fun_induction pairs l with
  | case1 first second rest ih =>
    have hrest : rest.length % 2 = 0 := by
      simp only [List.length_cons] at heven
      omega
    simp only [List.forall_mem_cons, ih hrest, and_assoc]
  | case2 l hshort =>
    obtain rfl | ⟨x, rfl⟩ := short_cases hshort
    · simp
    · simp at heven

end Chunks
