import Mathlib.Algebra.Order.Ring.Nat

/-!
# Rounding to a binary floating-point format

A natural number is rounded to the nearest multiple of a unit, and of two that are as near to the one
with an even factor.  A format of some precision rounds a number with the unit of its binade: the
numbers with one binary logarithm.  Rounding keeps the order of numbers, but not their difference.
-/

namespace Taskfire.Library

/-! ## Multiples of a unit -/

/-- The number of units in the nearest multiple. -/
def nearestFactor (unit n : Nat) : Nat :=
  if 2 * (n % unit) < unit ∨ 2 * (n % unit) = unit ∧ n / unit % 2 = 0 then n / unit else n / unit + 1

def nearest (unit n : Nat) : Nat := nearestFactor unit n * unit

theorem nearestFactor_le (unit n : Nat) : nearestFactor unit n ≤ n / unit + 1 := by
  unfold nearestFactor
  split <;> omega

theorem le_nearestFactor (unit n : Nat) : n / unit ≤ nearestFactor unit n := by
  unfold nearestFactor
  split <;> omega

theorem nearestFactor_mono (unit : Nat) {m n : Nat} (ordered : m ≤ n) :
    nearestFactor unit m ≤ nearestFactor unit n := by
  have quotients : m / unit ≤ n / unit := Nat.div_le_div_right ordered
  rcases Nat.lt_or_ge (m / unit) (n / unit) with less | same
  · exact (nearestFactor_le unit m).trans (less.trans_le (le_nearestFactor unit n))
  · -- In one multiple the greater rest is rounded up if the smaller one is.
    have equal : m / unit = n / unit := Nat.le_antisymm quotients same
    have wholeM := Nat.div_add_mod m unit
    have wholeN := Nat.div_add_mod n unit
    rw [equal] at wholeM
    unfold nearestFactor
    rw [equal]
    split <;> split <;> omega

theorem nearest_mono (unit : Nat) {m n : Nat} (ordered : m ≤ n) : nearest unit m ≤ nearest unit n :=
  Nat.mul_le_mul_right unit (nearestFactor_mono unit ordered)

/-- The error is at most half a unit. -/
theorem nearest_error {unit : Nat} (positive : 0 < unit) (n : Nat) :
    2 * nearest unit n ≤ 2 * n + unit ∧ 2 * n ≤ 2 * nearest unit n + unit := by
  have whole := Nat.div_add_mod n unit
  have bound := Nat.mod_lt n positive
  unfold nearest nearestFactor
  split
  · rw [Nat.mul_comm (n / unit)]
    omega
  · rw [Nat.add_mul, Nat.mul_comm (n / unit)]
    omega

theorem nearest_of_dvd {unit n : Nat} (positive : 0 < unit) (divides : unit ∣ n) : nearest unit n = n := by
  unfold nearest nearestFactor
  rw [Nat.mod_eq_zero_of_dvd divides, if_pos (.inl positive), Nat.div_mul_cancel divides]

/-! ## Formats -/

/-- The distance of the numbers of the format in the binade of `n`. -/
def ulp (precision n : Nat) : Nat := 2 ^ (n.log2 + 1 - precision)

def roundTo (precision n : Nat) : Nat := nearest (ulp precision n) n

variable {precision : Nat}

theorem ulp_pos (precision n : Nat) : 0 < ulp precision n := Nat.two_pow_pos _

theorem roundTo_zero (precision : Nat) : roundTo precision 0 = 0 :=
  nearest_of_dvd (ulp_pos precision 0) (Nat.dvd_zero _)

/-- Rounding does not leave the binade of a number, but for the power of two above it. -/
theorem roundTo_le (precision n : Nat) : roundTo precision n ≤ 2 ^ (n.log2 + 1) := by
  have divides : ulp precision n ∣ 2 ^ (n.log2 + 1) := Nat.pow_dvd_pow 2 (Nat.sub_le _ _)
  calc roundTo precision n
      ≤ nearest (ulp precision n) (2 ^ (n.log2 + 1)) := nearest_mono _ (Nat.lt_log2_self).le
    _ = 2 ^ (n.log2 + 1) := nearest_of_dvd (ulp_pos precision n) divides

theorem le_roundTo {n : Nat} (positive : 0 < precision) (nonzero : n ≠ 0) :
    2 ^ n.log2 ≤ roundTo precision n := by
  have divides : ulp precision n ∣ 2 ^ n.log2 := Nat.pow_dvd_pow 2 (by omega)
  calc 2 ^ n.log2
      = nearest (ulp precision n) (2 ^ n.log2) := (nearest_of_dvd (ulp_pos precision n) divides).symm
    _ ≤ roundTo precision n := nearest_mono _ (Nat.log2_self_le nonzero)

theorem log2_mono {m n : Nat} (ordered : m ≤ n) : m.log2 ≤ n.log2 := by
  rcases Nat.eq_zero_or_pos m with zero | positive
  · subst zero
    exact Nat.zero_le _
  · exact (Nat.le_log2 (by omega)).mpr ((Nat.log2_self_le (Nat.ne_of_gt positive)).trans ordered)

theorem roundTo_mono (positive : 0 < precision) {m n : Nat} (ordered : m ≤ n) :
    roundTo precision m ≤ roundTo precision n := by
  rcases Nat.eq_or_lt_of_le (log2_mono ordered) with same | less
  · have unit : ulp precision m = ulp precision n := by rw [ulp, ulp, same]
    rw [roundTo, roundTo, unit]
    exact nearest_mono _ ordered
  · have nonzero : n ≠ 0 := by
      rintro rfl
      exact absurd less (Nat.not_lt_zero _)
    calc roundTo precision m
        ≤ 2 ^ (m.log2 + 1) := roundTo_le precision m
      _ ≤ 2 ^ n.log2 := Nat.pow_le_pow_right Nat.two_pos less
      _ ≤ roundTo precision n := le_roundTo positive nonzero

/-- Numbers of `digits` digits that are further apart than a unit of the format stay apart. -/
theorem roundTo_lt {digits m n : Nat} (apart : m + 2 ^ (digits - precision) < n)
    (bounded : n < 2 ^ digits) : roundTo precision m < roundTo precision n := by
  have some : digits ≠ 0 := by
    rintro rfl
    rw [Nat.lt_one_iff.mp bounded] at apart
    exact Nat.not_lt_zero _ apart
  have unit {k : Nat} (within : k < 2 ^ digits) : ulp precision k ≤ 2 ^ (digits - precision) := by
    rcases Nat.eq_zero_or_pos k with zero | positive
    · subst zero
      exact Nat.pow_le_pow_right Nat.two_pos (by simp only [Nat.log2_zero]; omega)
    · have short : k.log2 < digits := (Nat.log2_lt (Nat.ne_of_gt positive)).mpr within
      exact Nat.pow_le_pow_right Nat.two_pos (by omega)
  have below := unit (Nat.lt_trans (Nat.lt_of_le_of_lt (Nat.le_add_right m _) apart) bounded)
  have above := unit bounded
  have errorM := (nearest_error (ulp_pos precision m) m).1
  have errorN := (nearest_error (ulp_pos precision n) n).2
  rw [roundTo, roundTo]
  omega

end Taskfire.Library
