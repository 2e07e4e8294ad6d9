import Mathlib.Data.Finset.Lattice.Basic
import Mathlib.Data.Set.Finite.Basic

namespace Cuprum.Context

universe u

variable {α : Type u}

/-- What a policy lets through: everything, or the members of a finite set. -/
inductive Allowance (α : Type u)
  | everything
  | only (members : Finset α)

namespace Allowance

def permits : Allowance α → Set α
  | everything => Set.univ
  | only members => members

@[simp] theorem permits_everything : (everything : Allowance α).permits = Set.univ :=
  rfl

@[simp] theorem permits_only (members : Finset α) :
    (only members).permits = (members : Set α) :=
  rfl

/-- Over infinitely many names a finite set is never everything. -/
theorem permits_eq_univ_iff [Infinite α] {allowance : Allowance α} :
    allowance.permits = Set.univ ↔ allowance = everything := by
  constructor
  · intro whole
    cases allowance with
    | everything => rfl
    | only members =>
        rw [permits_only] at whole
        exact absurd (whole ▸ members.finite_toSet) Set.infinite_univ
  · rintro rfl
    rfl

variable [DecidableEq α]

def meet : Allowance α → Allowance α → Allowance α
  | everything, other => other
  | only members, everything => only members
  | only members, only others => only (members ∩ others)

theorem meet_everything (allowance : Allowance α) :
    allowance.meet everything = allowance := by
  cases allowance <;> rfl

theorem permits_meet (first second : Allowance α) :
    (first.meet second).permits = first.permits ∩ second.permits := by
  cases first with
  | everything => exact (Set.univ_inter _).symm
  | only members =>
      cases second with
      | everything => exact (Set.inter_univ _).symm
      | only others => exact Finset.coe_inter members others

theorem meet_eq_everything {first second : Allowance α}
    (meets : first.meet second = everything) : first = everything := by
  cases first with
  | everything => rfl
  | only members => cases second <;> cases meets

theorem permits_foldl_meet (first : Allowance α) (others : List (Allowance α)) :
    (others.foldl meet first).permits =
      first.permits ∩ {a | ∀ other ∈ others, a ∈ other.permits} := by
  induction others generalizing first with
  | nil => simp
  | cons other others induction =>
      rw [List.foldl_cons, induction, permits_meet, Set.inter_assoc]
      congr 1
      ext a
      simp

end Allowance

end Cuprum.Context
