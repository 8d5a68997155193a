import Mathlib.Data.List.Induction

namespace History

variable {τ : Type*}

/-- Every entry of a history was lawful when it was added, given the entries
before it. -/
def EachStep (law : List τ → τ → Prop) (history : List τ) : Prop :=
  ∀ before entry after, history = before ++ entry :: after → law before entry

theorem eachStep_nil (law : List τ → τ → Prop) : EachStep law [] := by
  intro before entry after h
  exact absurd h.symm (by simp)

theorem eachStep_snoc {law : List τ → τ → Prop} {history : List τ} {entry : τ} :
    EachStep law (history ++ [entry]) ↔ EachStep law history ∧ law history entry := by
  constructor
  · intro h
    refine ⟨?_, h history entry [] rfl⟩
    intro before other after hsplit
    exact h before other (after ++ [entry]) (by simp [hsplit])
  · rintro ⟨hbefore, hlast⟩ before other after hsplit
    rcases List.eq_nil_or_concat after with rfl | ⟨middle, last, rfl⟩
    · obtain ⟨rfl, hentry⟩ := List.append_inj' hsplit rfl
      rw [List.cons.injEq] at hentry
      exact hentry.1 ▸ hlast
    · rw [List.concat_eq_append, ← List.cons_append, ← List.append_assoc] at hsplit
      obtain ⟨hhistory, -⟩ := List.append_inj' hsplit rfl
      exact hbefore before other middle hhistory

theorem EachStep.mono {law law' : List τ → τ → Prop} {history : List τ} (h : EachStep law history)
    (himp : ∀ before entry, law before entry → law' before entry) : EachStep law' history :=
  fun before entry after hsplit => himp before entry (h before entry after hsplit)

end History
