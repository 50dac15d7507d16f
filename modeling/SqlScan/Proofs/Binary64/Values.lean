import Mathlib.Algebra.Order.Field.Basic
import Mathlib.Algebra.Order.Field.Rat
import Mathlib.Order.Monotone.Basic
import Mathlib.Tactic.Linarith
import Mathlib.Tactic.Positivity
import Mathlib.Tactic.Ring
import SqlScan.Binary64

/-!
# Magnitudes and their values

Magnitudes are ordered as their values are, and up to the next power of two their values are multiples
of one power of two (`units_step`). So of two magnitudes that are as near to a value and nearer than all
others one is odd, and the nearest magnitude with ties to even is unique. Infinity stands for the
first value that is too large.
-/

namespace SqlScan.Binary64

theorem exponentStep_pos : 0 < exponentStep := by decide

theorem unitsInOne_pos : 0 < unitsInOne := by decide +kernel

/-! ### Units -/

theorem units_of_lt {fraction : Nat} (h : fraction < exponentStep) : units fraction = fraction := by
  rw [units, Nat.div_eq_of_lt h, Nat.mod_eq_of_lt h]
  rfl

theorem units_of_exponent {fraction : Nat} (exponent : Nat) (h : fraction < exponentStep) :
    units ((exponent + 1) * exponentStep + fraction) = (exponentStep + fraction) * 2 ^ exponent := by
  obtain ⟨hdiv, hmod⟩ := (Nat.div_mod_unique (a := (exponent + 1) * exponentStep + fraction)
    exponentStep_pos).2 ⟨by rw [Nat.mul_comm, Nat.add_comm], h⟩
  rw [units, hdiv, hmod]
  rfl

/-- Up to the next power of two the units are multiples of one power of two. -/
theorem units_step {e s : Nat} (hnormal : e = 0 ∨ exponentStep ≤ s) (hs : s ≤ 2 * exponentStep) :
    units (e * exponentStep + s) = s * 2 ^ e := by
  rcases Nat.lt_or_ge s exponentStep with hlt | hge
  · obtain rfl : e = 0 := by omega
    rw [Nat.zero_mul, Nat.zero_add, units_of_lt hlt, Nat.pow_zero, Nat.mul_one]
  · obtain ⟨fraction, rfl⟩ := Nat.exists_eq_add_of_le hge
    rcases Nat.lt_or_ge fraction exponentStep with hlt' | hge'
    · rw [← Nat.add_assoc, ← Nat.succ_mul, units_of_exponent e hlt']
    · -- the next power of two is the first of its own exponent
      obtain rfl : fraction = exponentStep := by omega
      have hnext : e * exponentStep + (exponentStep + exponentStep) = (e + 1 + 1) * exponentStep + 0 := by
        ring
      rw [hnext, units_of_exponent (e + 1) exponentStep_pos, Nat.pow_succ]
      ring

/-- Every magnitude is some steps of the exponent and a multiple of their power of two. -/
theorem exists_step (m : Nat) :
    ∃ e s, m = e * exponentStep + s ∧ (e = 0 ∨ exponentStep ≤ s) ∧ s < 2 * exponentStep := by
  have hdiv := Nat.div_add_mod' m exponentStep
  have hmod := Nat.mod_lt m exponentStep_pos
  cases hexponent : m / exponentStep with
  | zero =>
    rw [hexponent, Nat.zero_mul, Nat.zero_add] at hdiv
    exact ⟨0, m, by rw [Nat.zero_mul, Nat.zero_add], .inl rfl, by omega⟩
  | succ e =>
    rw [hexponent, Nat.succ_mul, Nat.add_assoc] at hdiv
    exact ⟨e, _, hdiv.symm, .inr (Nat.le_add_right _ _), by omega⟩

theorem units_strictMono : StrictMono units := by
  apply strictMono_nat_of_lt_succ
  intro m
  obtain ⟨e, s, rfl, hnormal, hs⟩ := exists_step m
  rw [Nat.add_assoc, units_step hnormal hs.le, units_step (hnormal.imp_right (by omega)) hs]
  exact Nat.mul_lt_mul_of_pos_right (Nat.lt_succ_self s) (Nat.two_pow_pos e)

theorem units_zero : units 0 = 0 := units_of_lt exponentStep_pos

/-- From some exponent on all units are multiples of its power of two. -/
theorem dvd_units {e m : Nat} (h : (e + 1) * exponentStep ≤ m) : 2 ^ e ∣ units m := by
  obtain ⟨e', s, rfl, hnormal, hs⟩ := exists_step m
  have hle : e ≤ e' := by
    by_contra hlt
    have hsteps : (e' + 2) * exponentStep ≤ (e + 1) * exponentStep :=
      Nat.mul_le_mul_right exponentStep (by omega)
    rw [Nat.add_mul] at hsteps
    omega
  rw [units_step hnormal hs.le]
  exact (Nat.pow_dvd_pow 2 hle).mul_left s

/-- Units that are no multiples of a power of two lie below the first number with its exponent. -/
theorem units_lt_of_not_dvd {e m : Nat} (h : ¬ 2 ^ e ∣ units m) : units m < exponentStep * 2 ^ e := by
  have hm : m < e * exponentStep + exponentStep := by
    rw [← Nat.succ_mul]
    exact not_le.1 fun hle => h (dvd_units hle)
  have hunits := units_strictMono hm
  rwa [units_step (.inr le_rfl) (by omega)] at hunits

/-! ### Values -/

/-- The value of a magnitude; infinity has the first value that is too large. -/
def value (magnitude : Nat) : ℚ := units magnitude / unitsInOne

theorem value_zero : value 0 = 0 := by
  rw [value, units_zero, Nat.cast_zero, zero_div]

theorem value_strictMono : StrictMono value := by
  intro m n h
  have hpos : (0 : ℚ) < unitsInOne := by exact_mod_cast unitsInOne_pos
  exact div_lt_div_of_pos_right (by exact_mod_cast units_strictMono h) hpos

/-! ### The nearest magnitude -/

/-- The magnitude is nearest to a value; between two that are as near it is the even one, whose last
bit is not set. -/
structure IsNearest (v : ℚ) (m : Nat) : Prop where
  le : m ≤ infinity
  nearest : ∀ k ≤ infinity, |value m - v| ≤ |value k - v|
  even : ∀ k ≤ infinity, k ≠ m → |value k - v| = |value m - v| → m % 2 = 0

namespace IsNearest

variable {v : ℚ} {m n : Nat}

theorem le_of_isNearest (hm : IsNearest v m) (hn : IsNearest v n) : n ≤ m := by
  by_contra hlt
  rw [not_le] at hlt
  have hequal : |value m - v| = |value n - v| :=
    le_antisymm (hm.nearest n hn.le) (hn.nearest m hm.le)
  have hvalue := value_strictMono hlt
  -- the value lies between the two, and so does any magnitude between them
  have hopposite : v - value m = value n - v := by
    rcases abs_eq_abs.1 hequal with heq | heq <;> linarith
  have hadjacent : n = m + 1 := by
    by_contra hne
    have hfirst := value_strictMono (Nat.lt_succ_self m)
    have hsecond := value_strictMono (show m + 1 < n by omega)
    have hbelow : m + 1 ≤ infinity := le_trans (by omega) hn.le
    have hbetween := hm.nearest (m + 1) hbelow
    rw [abs_sub_comm, abs_of_nonneg (by linarith)] at hbetween
    rcases abs_cases (value (m + 1) - v) with ⟨heq, -⟩ | ⟨heq, -⟩ <;> rw [heq] at hbetween <;>
      linarith
  have hm_even := hm.even n hn.le hlt.ne' hequal.symm
  have hn_even := hn.even m hm.le hlt.ne hequal
  omega

theorem unique (hm : IsNearest v m) (hn : IsNearest v n) : m = n :=
  le_antisymm (hn.le_of_isNearest hm) (hm.le_of_isNearest hn)

end IsNearest

/-- A magnitude is nearest to its own value. -/
theorem isNearest_value {m : Nat} (h : m ≤ infinity) : IsNearest (value m) m := by
  refine ⟨h, ?_, ?_⟩
  · intro k _
    rw [sub_self, abs_zero]
    exact abs_nonneg _
  · intro k _ hne heq
    rw [sub_self, abs_zero, abs_eq_zero, sub_eq_zero] at heq
    exact absurd (value_strictMono.injective heq) hne

/-- Nothing is nearer to a value that is too large than infinity. -/
theorem isNearest_infinity {v : ℚ} (h : value infinity ≤ v) : IsNearest v infinity := by
  have hdist : ∀ k ≤ infinity, |value k - v| = v - value k := by
    intro k hk
    have hle := value_strictMono.monotone hk
    rw [abs_sub_comm, abs_of_nonneg (by linarith)]
  refine ⟨le_rfl, ?_, fun _ _ _ _ => by decide⟩
  intro k hk
  have hle := value_strictMono.monotone hk
  rw [hdist k hk, hdist infinity le_rfl]
  linarith

/-- Nothing is nearer than zero to a value below half a unit. -/
theorem isNearest_zero {v : ℚ} (hnonneg : 0 ≤ v) (h : 2 * v * unitsInOne < 1) : IsNearest v 0 := by
  have hpos : (0 : ℚ) < unitsInOne := by exact_mod_cast unitsInOne_pos
  refine ⟨Nat.zero_le _, ?_, fun _ _ _ _ => rfl⟩
  intro k _
  rw [value_zero, zero_sub, abs_neg, abs_of_nonneg hnonneg]
  cases k with
  | zero => rw [value_zero, zero_sub, abs_neg, abs_of_nonneg hnonneg]
  | succ k =>
    have hone : 1 ≤ units (k + 1) := by
      have hlt := units_strictMono (Nat.succ_pos k)
      rwa [units_zero] at hlt
    have hvalue : 2 * v ≤ value (k + 1) := by
      rw [value, le_div_iff₀ hpos]
      have hcast : (1 : ℚ) ≤ units (k + 1) := by exact_mod_cast hone
      linarith
    rw [abs_of_nonneg (by linarith)]
    linarith

/-- The nearest of all magnitudes, also of those beyond infinity, is cut off at infinity. -/
theorem isNearest_min {v : ℚ} {m : Nat} (h : ∀ k, |value m - v| ≤ |value k - v| ∧
    (k ≠ m → |value k - v| = |value m - v| → m % 2 = 0)) : IsNearest v (min m infinity) := by
  rcases Nat.lt_or_ge infinity m with hlt | hge
  · rw [min_eq_right hlt.le]
    apply isNearest_infinity
    by_contra hv
    have hvalue := value_strictMono hlt
    have hnear := (h infinity).1
    rw [abs_of_nonneg (by linarith), abs_of_nonneg (by linarith)] at hnear
    linarith
  · rw [min_eq_left hge]
    exact ⟨hge, fun k _ => (h k).1, fun k _ => (h k).2⟩

end SqlScan.Binary64
