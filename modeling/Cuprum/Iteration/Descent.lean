import Mathlib.Order.Iterate

namespace Cuprum.Iteration

variable {α : Type*} {step : α → α} {start : α}

variable [PartialOrder α] {size : α → Nat}

theorem size_iterate_add_le (monotone : Monotone step) (sized : Monotone size)
    (reads : ∀ {a b}, size a = size b → step a = step b) (falls : step start ≤ start)
    {n : Nat} (unsettled : ∀ k ≤ n, step^[k + 1] start ≠ step^[k] start) :
    size (step^[n] start) + n ≤ size start := by
  induction n with
  | zero => exact Nat.le_refl _
  | succ n induction =>
      have before := induction fun k le => unsettled k (Nat.le_succ_of_le le)
      have lower : size (step^[n + 1] start) ≤ size (step^[n] start) :=
        sized (monotone.antitone_iterate_of_map_le falls (Nat.le_succ n))
      have moved : size (step^[n + 1] start) ≠ size (step^[n] start) := by
        intro same
        apply unsettled (n + 1) (Nat.le_refl _)
        calc step^[n + 1 + 1] start = step (step^[n + 1] start) :=
              Function.iterate_succ_apply' _ _ _
          _ = step (step^[n] start) := reads same
          _ = step^[n + 1] start := (Function.iterate_succ_apply' _ _ _).symm
      omega

theorem exists_settled (monotone : Monotone step) (sized : Monotone size)
    (reads : ∀ {a b}, size a = size b → step a = step b) (falls : step start ≤ start)
    {n : Nat} (small : size start < n + size (step^[n] start)) :
    ∃ k ≤ n, step^[k + 1] start = step^[k] start := by
  by_contra none
  have unsettled : ∀ k ≤ n, step^[k + 1] start ≠ step^[k] start :=
    fun k le same => none ⟨k, le, same⟩
  have descended := size_iterate_add_le monotone sized reads falls unsettled
  omega

end Cuprum.Iteration
