import Mathlib.Algebra.Order.Sub.Basic
import Mathlib.Algebra.Order.Group.Int
import Mathlib.Algebra.Ring.Parity
import Mathlib.Data.Nat.Log

namespace Cuprum.Rounding

/-- Sums and differences that are rounded, as far as the order of what they are taken of
tells. -/
class RoundedArithmetic (τ : Type) [LinearOrder τ] [Zero τ] [Add τ] [Sub τ] : Prop where
  add_le_add_right : ∀ {first second : τ} (shift : τ), first ≤ second →
    first + shift ≤ second + shift
  sub_le_sub_right : ∀ {first second : τ} (shift : τ), first ≤ second →
    first - shift ≤ second - shift
  sub_pos : ∀ {first second : τ}, 0 < second - first ↔ first < second

/-! Rounding to the nearest multiple of a unit, and to the even one of two that are equally
near. -/

def nearest (unit n : Nat) : Nat :=
  if 2 * (n % unit) < unit ∨ 2 * (n % unit) = unit ∧ Even (n / unit) then n / unit * unit
  else (n / unit + 1) * unit

section

variable {unit first second : Nat}

theorem le_nearest (unit n : Nat) : n / unit * unit ≤ nearest unit n := by
  unfold nearest
  split
  · exact le_rfl
  · exact Nat.mul_le_mul_right unit (Nat.le_succ _)

theorem nearest_le (unit n : Nat) : nearest unit n ≤ (n / unit + 1) * unit := by
  unfold nearest
  split
  · exact Nat.mul_le_mul_right unit (Nat.le_succ _)
  · exact le_rfl

theorem nearest_mono (unit : Nat) : Monotone (nearest unit) := by
  intro first second below
  rcases Nat.lt_or_ge (first / unit) (second / unit) with apart | together
  · calc nearest unit first
        ≤ (first / unit + 1) * unit := nearest_le unit first
      _ ≤ second / unit * unit := Nat.mul_le_mul_right unit apart
      _ ≤ nearest unit second := le_nearest unit second
  · have same : first / unit = second / unit :=
      (Nat.div_le_div_right below).antisymm together
    have rest : first % unit ≤ second % unit := by
      have one := Nat.div_add_mod first unit
      have other := Nat.div_add_mod second unit
      rw [same] at one
      omega
    unfold nearest
    rw [same]
    by_cases down : 2 * (second % unit) < unit ∨
        2 * (second % unit) = unit ∧ Even (second / unit)
    · have downwards : 2 * (first % unit) < unit ∨
          2 * (first % unit) = unit ∧ Even (second / unit) := by
        rcases down with less | ⟨tie, even⟩
        · exact .inl (by omega)
        · rcases Nat.lt_or_ge (2 * (first % unit)) unit with less | more
          · exact .inl less
          · exact .inr ⟨by omega, even⟩
      rw [if_pos down, if_pos downwards]
    · rw [if_neg down]
      split
      · exact Nat.mul_le_mul_right unit (Nat.le_succ _)
      · exact le_rfl

@[simp] theorem nearest_mul (positive : 0 < unit) (k : Nat) :
    nearest unit (k * unit) = k * unit := by
  unfold nearest
  rw [Nat.mul_mod_left, Nat.mul_div_cancel k positive, if_pos (.inl positive)]

theorem exists_nearest_eq (unit n : Nat) : ∃ k, nearest unit n = k * unit := by
  unfold nearest
  split
  · exact ⟨_, rfl⟩
  · exact ⟨_, rfl⟩

end

/-! Rounding to one binary digit and `fraction` more. -/

def roundNat (fraction n : Nat) : Nat :=
  nearest (2 ^ (n.log2 - fraction)) n

section

variable {fraction first second n : Nat}

theorem two_pow_le_roundNat (fraction : Nat) (nonzero : n ≠ 0) :
    2 ^ n.log2 ≤ roundNat fraction n := by
  have split : 2 ^ n.log2 = 2 ^ (n.log2 - (n.log2 - fraction)) * 2 ^ (n.log2 - fraction) := by
    rw [← Nat.pow_add]
    congr 1
    omega
  rw [split, ← nearest_mul (Nat.two_pow_pos _), ← split]
  exact nearest_mono _ (Nat.log2_self_le nonzero)

theorem roundNat_le_two_pow (fraction n : Nat) : roundNat fraction n ≤ 2 ^ (n.log2 + 1) := by
  have split : 2 ^ (n.log2 + 1) =
      2 ^ (n.log2 + 1 - (n.log2 - fraction)) * 2 ^ (n.log2 - fraction) := by
    rw [← Nat.pow_add]
    congr 1
    omega
  rw [split, ← nearest_mul (Nat.two_pow_pos _), ← split]
  exact nearest_mono _ Nat.lt_log2_self.le

theorem roundNat_mono (fraction : Nat) : Monotone (roundNat fraction) := by
  intro first second below
  rcases Nat.eq_zero_or_pos first with rfl | positive
  · simp [roundNat, nearest]
  · have larger : second ≠ 0 := by omega
    have logs : first.log2 ≤ second.log2 := by
      rw [Nat.le_log2 larger]
      exact (Nat.log2_self_le positive.ne').trans below
    rcases logs.eq_or_lt with same | apart
    · unfold roundNat
      rw [same]
      exact nearest_mono _ below
    · calc roundNat fraction first
          ≤ 2 ^ (first.log2 + 1) := roundNat_le_two_pow fraction first
        _ ≤ 2 ^ second.log2 := Nat.pow_le_pow_right Nat.two_pos apart
        _ ≤ roundNat fraction second := two_pow_le_roundNat fraction larger

/-- What has been rounded is a number of that precision. -/
theorem roundNat_roundNat (fraction n : Nat) :
    roundNat fraction (roundNat fraction n) = roundNat fraction n := by
  rcases Nat.eq_zero_or_pos n with rfl | positive
  · simp [roundNat, nearest]
  · have least := two_pow_le_roundNat fraction positive.ne'
    have most := roundNat_le_two_pow fraction n
    have nonzero : roundNat fraction n ≠ 0 := by
      have := Nat.two_pow_pos n.log2
      omega
    rcases most.eq_or_lt with top | inside
    · -- A carry out of the leading digit leaves a power of two.
      have log : (roundNat fraction n).log2 = n.log2 + 1 := by rw [top, Nat.log2_two_pow]
      have split : roundNat fraction n =
          2 ^ (n.log2 + 1 - (n.log2 + 1 - fraction)) * 2 ^ (n.log2 + 1 - fraction) := by
        rw [top, ← Nat.pow_add]
        congr 1
        omega
      conv_lhs => rw [roundNat, log, split]
      rw [nearest_mul (Nat.two_pow_pos _), ← split]
    · have log : (roundNat fraction n).log2 = n.log2 :=
        ((Nat.log2_eq_iff nonzero).mpr ⟨least, inside⟩)
      obtain ⟨k, same⟩ := exists_nearest_eq (2 ^ (n.log2 - fraction)) n
      conv_lhs => rw [roundNat, log]
      rw [show roundNat fraction n = k * 2 ^ (n.log2 - fraction) from same,
        nearest_mul (Nat.two_pow_pos _)]

end

/-- The rounding of a signed count, the same on both sides of zero. -/
def round (fraction : Nat) : Int → Int
  | .ofNat n => roundNat fraction n
  | .negSucc n => -roundNat fraction (n + 1)

section

variable {fraction : Nat} {n : Int}

@[simp] theorem round_zero (fraction : Nat) : round fraction 0 = 0 := by
  simp [round, roundNat, nearest]

@[simp] theorem round_natCast (fraction n : Nat) :
    round fraction (n : Int) = roundNat fraction n := rfl

@[simp] theorem round_neg_natCast (fraction n : Nat) :
    round fraction (-(n : Int)) = -(roundNat fraction n : Int) := by
  cases n with
  | zero => simp [round, roundNat, nearest]
  | succ n => rfl

theorem round_le_round (fraction : Nat) {first second : Int} (below : first ≤ second) :
    round fraction first ≤ round fraction second := by
  match first, second with
  | .ofNat first, .ofNat second =>
      exact Int.ofNat_le.mpr (roundNat_mono fraction (Int.ofNat_le.mp below))
  | .ofNat first, .negSucc second =>
      exact absurd ((Int.natCast_nonneg first).trans below) (Int.negSucc_not_nonneg second).mp
  | .negSucc first, .ofNat second =>
      exact (Int.neg_nonpos_of_nonneg (Int.natCast_nonneg _)).trans (Int.natCast_nonneg _)
  | .negSucc first, .negSucc second =>
      apply Int.neg_le_neg
      exact Int.ofNat_le.mpr (roundNat_mono fraction (by omega))

theorem round_pos : 0 < round fraction n ↔ 0 < n := by
  match n with
  | .ofNat 0 => simp [round, roundNat, nearest]
  | .ofNat (n + 1) =>
      have positive := (Nat.two_pow_pos _).trans_le (two_pow_le_roundNat fraction n.succ_ne_zero)
      exact iff_of_true (Int.natCast_pos.mpr positive) (Int.natCast_pos.mpr n.succ_pos)
  | .negSucc n =>
      refine iff_of_false ?_ (by omega)
      exact not_lt.mpr (Int.neg_nonpos_of_nonneg (Int.natCast_nonneg _))

theorem round_round (fraction : Nat) (n : Int) :
    round fraction (round fraction n) = round fraction n := by
  match n with
  | .ofNat n =>
      change round fraction (roundNat fraction n) = roundNat fraction n
      rw [round_natCast, roundNat_roundNat]
  | .negSucc n =>
      change round fraction (-(roundNat fraction (n + 1) : Int)) = -roundNat fraction (n + 1)
      rw [round_neg_natCast, roundNat_roundNat]

end

/-- A number of one binary digit and `fraction` more, counted in the least of them. -/
structure Binary (fraction : Nat) where
  units : Int
  representable : round fraction units = units
  deriving DecidableEq

namespace Binary

variable {fraction : Nat}

/-- The number nearest to a count of units. -/
def rounded (units : Int) : Binary fraction where
  units := round fraction units
  representable := round_round fraction units

theorem units_injective : Function.Injective fun number : Binary fraction => number.units := by
  intro first second same
  cases first
  cases second
  cases same
  rfl

instance : LinearOrder (Binary fraction) := LinearOrder.lift' units units_injective

instance : Zero (Binary fraction) := ⟨⟨0, round_zero fraction⟩⟩

instance : Add (Binary fraction) := ⟨fun first second => rounded (first.units + second.units)⟩

instance : Sub (Binary fraction) := ⟨fun first second => rounded (first.units - second.units)⟩

instance : RoundedArithmetic (Binary fraction) where
  add_le_add_right shift below := round_le_round fraction (Int.add_le_add_right below shift.units)
  sub_le_sub_right shift below := round_le_round fraction (Int.sub_le_sub_right below shift.units)
  sub_pos {first second} := by
    change 0 < round fraction (second.units - first.units) ↔ first.units < second.units
    rw [round_pos, Int.sub_pos]

end Binary

/-- The finite numbers of double precision, in units of `2 ^ -1074`. -/
abbrev Binary64 := Binary 52

/-- The double nearest to `mantissa * 2 ^ -scale`. -/
def Binary64.dyadic (mantissa : Int) (scale : Nat) : Binary64 :=
  .rounded (mantissa * 2 ^ (1074 - scale))

end Cuprum.Rounding
