import Mathlib.Data.List.Induction

namespace Cuprum.Transition

universe u

variable {α : Type u} {holds : List α → α → Prop}

/-- A law about each entry of a log and what was logged before it. -/
def Throughout (holds : List α → α → Prop) (log : List α) : Prop :=
  ∀ front entry back, log = front ++ entry :: back → holds front entry

theorem throughout_nil : Throughout holds [] := by
  intro front entry back split
  cases front <;> cases split

theorem throughout_concat {log : List α} {last : α} :
    Throughout holds (log ++ [last]) ↔ Throughout holds log ∧ holds log last := by
  constructor
  · intro every
    refine ⟨fun front entry back split => ?_, every log last [] rfl⟩
    exact every front entry (back ++ [last]) (by rw [split]; simp)
  · intro both front entry back split
    rcases List.eq_nil_or_concat back with rfl | ⟨middle, final, rfl⟩
    · obtain ⟨rfl, same⟩ := List.append_inj' split rfl
      cases same
      exact both.2
    · rw [List.concat_eq_append, ← List.cons_append, ← List.append_assoc] at split
      obtain ⟨rfl, _⟩ := List.append_inj' split rfl
      exact both.1 front entry middle rfl

theorem Throughout.of_append {log later : List α} (every : Throughout holds (log ++ later)) :
    Throughout holds log := by
  intro front entry back split
  exact every front entry (back ++ later) (by rw [split, List.append_assoc, List.cons_append])

end Cuprum.Transition
