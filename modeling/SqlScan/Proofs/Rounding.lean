import Mathlib.Algebra.Order.Group.Unbundled.Abs
import Mathlib.Algebra.Order.Ring.Int
import Mathlib.Tactic.Linarith
import Mathlib.Tactic.Positivity
import Mathlib.Tactic.Ring
import SqlScan.Binary64

/-!
# Rounding goes to the nearest whole number

A quotient rounded to even is a nearest whole number, and the even one if two are as near. Distances
are compared over the common denominator, so everything here is about whole numbers.
-/

namespace SqlScan.Tie

variable {den q t s : Nat}

/-- How far a whole number is from a quotient that is not below it. -/
theorem abs_sub_of_le (h : s ≤ q) :
    |(s * den : ℤ) - (q * den + t : Nat)| = ((q - s) * den + t : Nat) := by
  obtain ⟨j, rfl⟩ := Nat.exists_eq_add_of_le h
  have hdist : (s * den : ℤ) - ((s + j) * den + t : Nat) = -(j * den + t : Nat) := by
    push_cast
    ring
  rw [hdist, Nat.add_sub_cancel_left, abs_neg, Nat.abs_cast]

/-- How far a whole number is from a quotient below it. -/
theorem abs_sub_of_lt (ht : t ≤ den) (h : q < s) :
    |(s * den : ℤ) - (q * den + t : Nat)| = ((s - q - 1) * den + (den - t) : Nat) := by
  obtain ⟨j, rfl⟩ := Nat.exists_eq_add_of_lt h
  have hdist : ((q + j + 1 : Nat) * den : ℤ) - (q * den + t : Nat) = (j * den + (den - t) : Nat) := by
    push_cast [Nat.cast_sub ht]
    ring
  have hbetween : q + j + 1 - q - 1 = j := by omega
  rw [hdist, hbetween, Nat.abs_cast]

theorem abs_sub_lower : |(q * den : ℤ) - (q * den + t : Nat)| = t := by
  rw [abs_sub_of_le le_rfl, Nat.sub_self, Nat.zero_mul, Nat.zero_add]

theorem abs_sub_upper (ht : t ≤ den) :
    |((q + 1 : Nat) * den : ℤ) - (q * den + t : Nat)| = (den - t : Nat) := by
  have hnone : q + 1 - q - 1 = 0 := by omega
  rw [abs_sub_of_lt ht (Nat.lt_add_one q), hnone, Nat.zero_mul, Nat.zero_add]

/-- Only the two neighbours of a quotient are nearer than a whole step. -/
theorem abs_sub_cases (ht : t ≤ den) (q s : Nat) :
    s = q ∧ |(s * den : ℤ) - (q * den + t : Nat)| = t ∨
      s = q + 1 ∧ |(s * den : ℤ) - (q * den + t : Nat)| = (den - t : Nat) ∨
      (den : ℤ) ≤ |(s * den : ℤ) - (q * den + t : Nat)| := by
  rcases Nat.lt_trichotomy s q with hs | rfl | hs
  · obtain ⟨j, hj⟩ : ∃ j, q - s = j + 1 := ⟨q - s - 1, by omega⟩
    rw [abs_sub_of_le hs.le, hj, Nat.cast_le, Nat.succ_mul]
    omega
  · exact .inl ⟨rfl, abs_sub_lower⟩
  · by_cases hnext : s = q + 1
    · subst hnext
      exact .inr (.inl ⟨rfl, abs_sub_upper ht⟩)
    · obtain ⟨j, hj⟩ : ∃ j, s - q - 1 = j + 1 := ⟨s - q - 2, by omega⟩
      rw [abs_sub_of_lt ht hs, hj, Nat.cast_le, Nat.succ_mul]
      omega

/-- A rounded quotient is one of the two whole numbers next to it. -/
theorem round_bounds (tie : Tie) (num den : Nat) :
    num / den ≤ tie.round num den ∧ tie.round num den ≤ num / den + 1 := by
  unfold round
  split <;> omega

/-- Whether a quotient rounds up is decided by twice the remainder, and by the parity at a half. -/
theorem round_even_cases (num den : Nat) :
    (2 * (num % den) < den ∧ even.round num den = num / den) ∨
      (den < 2 * (num % den) ∧ even.round num den = num / den + 1) ∨
      2 * (num % den) = den ∧ even.round num den % 2 = 0 ∧
        (even.round num den = num / den ∨ even.round num den = num / den + 1) := by
  unfold round takesUpper
  dsimp only
  rcases Nat.lt_trichotomy (2 * (num % den)) den with hlt | heq | hgt
  · left
    rw [if_neg (Nat.ne_of_lt hlt)]
    simp only [decide_eq_true_eq, if_neg (Nat.not_lt_of_lt hlt)]
    exact ⟨hlt, trivial⟩
  · right
    right
    rw [if_pos heq]
    simp only [decide_eq_true_eq]
    split <;> omega
  · right
    left
    rw [if_neg (Nat.ne_of_gt hgt)]
    simp only [decide_eq_true_eq, if_pos hgt]
    exact ⟨hgt, trivial⟩

/-- No whole number is nearer than the rounded quotient, and another one is as near only if the rounded
quotient is even. -/
theorem round_even_nearest (num : Nat) (hden : 0 < den) (s : Nat) :
    |(even.round num den * den : ℤ) - num| ≤ |(s * den : ℤ) - num| ∧
      (s ≠ even.round num den →
        |(s * den : ℤ) - num| = |(even.round num den * den : ℤ) - num| →
        even.round num den % 2 = 0) := by
  have hmod := Nat.mod_lt num hden
  have hcases := round_even_cases num den
  have hnum := Nat.div_add_mod' num den
  generalize even.round num den = r at hcases ⊢
  generalize num / den = q at hcases hnum
  generalize num % den = t at hcases hnum hmod
  subst hnum
  have hrounded : r = q ∧ |(r * den : ℤ) - (q * den + t : Nat)| = t ∨
      r = q + 1 ∧ |(r * den : ℤ) - (q * den + t : Nat)| = (den - t : Nat) := by
    have hr : r = q ∨ r = q + 1 := by omega
    rcases hr with rfl | rfl
    · exact .inl ⟨rfl, abs_sub_lower⟩
    · exact .inr ⟨rfl, abs_sub_upper hmod.le⟩
  have hother := abs_sub_cases hmod.le q s
  generalize |(r * den : ℤ) - (q * den + t : Nat)| = near at hrounded ⊢
  generalize |(s * den : ℤ) - (q * den + t : Nat)| = far at hother ⊢
  omega

end SqlScan.Tie
