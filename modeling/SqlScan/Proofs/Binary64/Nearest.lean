import Mathlib.Algebra.Order.Field.Power
import Mathlib.Tactic.FieldSimp
import SqlScan.Proofs.Binary64.Values
import SqlScan.Proofs.Rounding

/-!
# Decimals are read as the nearest magnitude

A fraction of units is rounded once, to a multiple of a power of two. No other multiple of it is
nearer, and the magnitudes that are no multiples lie below a power of two that the fraction has
passed, so that power is nearer than they are. The shortcuts for decimals beyond either end agree
with that, so what a decimal is read as depends on its value alone (`nearest_eq_iff`).
-/

namespace SqlScan

namespace Binary64

variable {num den : Nat}

/-! ### Fractions of units -/

/-- Without the dropped bits 53 bits are left, or fewer if none were dropped. -/
theorem dropped_spec (q : Nat) :
    q < 2 * exponentStep * 2 ^ (q.log2 - 52) ∧
      (q.log2 - 52 = 0 ∨ exponentStep * 2 ^ (q.log2 - 52) ≤ q) := by
  have hbelow : q < 2 ^ (q.log2 + 1) := Nat.lt_log2_self
  rcases Nat.lt_or_ge q.log2 53 with hlt | hge
  · have hnone : q.log2 - 52 = 0 := by omega
    have hpow : 2 ^ (q.log2 + 1) ≤ 2 ^ 53 := Nat.pow_le_pow_right Nat.two_pos (by omega)
    rw [hnone, Nat.pow_zero, Nat.mul_one]
    exact ⟨hbelow.trans_le hpow, .inl rfl⟩
  · have hne : q ≠ 0 := by
      rintro rfl
      cases hge
    have hpow : exponentStep * 2 ^ (q.log2 - 52) = 2 ^ q.log2 := by
      rw [show exponentStep = 2 ^ 52 from rfl, ← Nat.pow_add, Nat.add_sub_cancel' (by omega)]
    rw [Nat.mul_assoc, hpow, Nat.mul_comm, ← Nat.pow_succ]
    exact ⟨hbelow, .inr (Nat.log2_self_le hne)⟩

theorem ofUnits_eq (num den : Nat) :
    ofUnits num den = ((num / den).log2 - 52) * exponentStep
      + Tie.even.round num (den * 2 ^ ((num / den).log2 - 52)) := rfl

/-- The units that a fraction is rounded to are a multiple of the weight of the dropped bits. -/
theorem units_ofUnits (num den : Nat) :
    units (ofUnits num den) = Tie.even.round num (den * 2 ^ ((num / den).log2 - 52))
      * 2 ^ ((num / den).log2 - 52) := by
  obtain ⟨hlt, hge⟩ := dropped_spec (num / den)
  rw [ofUnits_eq]
  generalize (num / den).log2 - 52 = dropped at hlt hge ⊢
  have hpos : 0 < 2 ^ dropped := Nat.two_pow_pos dropped
  obtain ⟨hlower, hupper⟩ := Tie.even.round_bounds num (den * 2 ^ dropped)
  rw [← Nat.div_div_eq_div_mul] at hlower hupper
  have hdiv : num / den / 2 ^ dropped < 2 * exponentStep :=
    Nat.div_lt_of_lt_mul (by rwa [Nat.mul_comm])
  refine units_step ?_ (by omega)
  rcases hge with hnone | hge
  · exact .inl hnone
  · exact .inr (((Nat.le_div_iff_mul_le hpos).2 hge).trans hlower)

theorem ofUnits_mod_two (num den : Nat) :
    ofUnits num den % 2 = Tie.even.round num (den * 2 ^ ((num / den).log2 - 52)) % 2 := by
  have heven : exponentStep % 2 = 0 := by decide
  rw [ofUnits_eq, Nat.add_mod, Nat.mul_mod, heven, Nat.mul_zero, Nat.zero_mod, Nat.zero_add,
    Nat.mod_mod]

/-- No magnitude is nearer to a fraction of units, and another one is as near only if this is even. -/
theorem ofUnits_nearest (hden : 0 < den) (k : Nat) :
    |(units (ofUnits num den) * den : ℤ) - num| ≤ |(units k * den : ℤ) - num| ∧
      (k ≠ ofUnits num den →
        |(units k * den : ℤ) - num| = |(units (ofUnits num den) * den : ℤ) - num| →
        ofUnits num den % 2 = 0) := by
  have hunits := units_ofUnits num den
  have hparity := ofUnits_mod_two num den
  obtain ⟨-, hge⟩ := dropped_spec (num / den)
  generalize (num / den).log2 - 52 = dropped at hunits hparity hge
  have hnearest := Tie.round_even_nearest num (Nat.mul_pos hden (Nat.two_pow_pos dropped))
  generalize Tie.even.round num (den * 2 ^ dropped) = r at hunits hparity hnearest
  have hmultiple : ∀ s : Nat, ((s * 2 ^ dropped : Nat) * den : ℤ) = s * (den * 2 ^ dropped : Nat) := by
    intro s
    push_cast
    ring
  by_cases hdvd : 2 ^ dropped ∣ units k
  · obtain ⟨s, hs⟩ := hdvd
    rw [Nat.mul_comm] at hs
    obtain ⟨hle, heven⟩ := hnearest s
    rw [hs, hunits, hmultiple, hmultiple, hparity]
    refine ⟨hle, fun hne => heven ?_⟩
    rintro rfl
    exact hne (units_strictMono.injective (hs.trans hunits.symm))
  · -- such a magnitude lies below a power of two that is a multiple and not above the fraction
    have hpower : exponentStep * 2 ^ dropped ≤ num / den := by
      rcases hge with rfl | hge
      · exact absurd (one_dvd _) hdvd
      · exact hge
    have hbelow := units_lt_of_not_dvd hdvd
    have hpower_le : ((exponentStep * 2 ^ dropped : Nat) * den : ℤ) ≤ num := by
      exact_mod_cast (Nat.le_div_iff_mul_le hden).1 hpower
    have hbelow_lt : (units k * den : ℤ) < (exponentStep * 2 ^ dropped : Nat) * den := by
      exact_mod_cast Nat.mul_lt_mul_of_pos_right hbelow hden
    have hstrict : |(units (ofUnits num den) * den : ℤ) - num| < |(units k * den : ℤ) - num| := by
      calc |(units (ofUnits num den) * den : ℤ) - num|
          ≤ |((exponentStep * 2 ^ dropped : Nat) * den : ℤ) - num| := by
            rw [hunits, hmultiple, hmultiple]
            exact (hnearest exponentStep).1
        _ = num - (exponentStep * 2 ^ dropped : Nat) * den := by
            rw [abs_sub_comm, abs_of_nonneg (sub_nonneg.2 hpower_le)]
        _ < num - units k * den := by linarith
        _ ≤ |(units k * den : ℤ) - num| := by
            rw [abs_sub_comm]
            exact le_abs_self _
    exact ⟨hstrict.le, fun _ heq => absurd heq hstrict.ne'⟩

theorem abs_value_sub (hden : 0 < den) (k : Nat) :
    |value k - num / den / unitsInOne| = (|(units k * den : ℤ) - num| : ℤ) / (den * unitsInOne) := by
  have hden_pos : (0 : ℚ) < den := by exact_mod_cast hden
  have hunits_pos : (0 : ℚ) < unitsInOne := by exact_mod_cast unitsInOne_pos
  have hsub : value k - num / den / unitsInOne
      = ((units k * den : ℤ) - num : ℤ) / (den * unitsInOne) := by
    rw [value]
    push_cast
    field_simp
  rw [hsub, abs_div, abs_of_pos (mul_pos hden_pos hunits_pos), Int.cast_abs]

theorem isNearest_ofUnits (num : Nat) (hden : 0 < den) :
    IsNearest (num / den / unitsInOne) (min (ofUnits num den) infinity) := by
  have hden_pos : (0 : ℚ) < den := by exact_mod_cast hden
  have hunits_pos : (0 : ℚ) < unitsInOne := by exact_mod_cast unitsInOne_pos
  have hpos := mul_pos hden_pos hunits_pos
  apply isNearest_min
  intro k
  have hnearest : |(units (ofUnits num den) * den : ℤ) - num| ≤ |(units k * den : ℤ) - num| ∧ _ :=
    ofUnits_nearest hden k
  rw [abs_value_sub hden, abs_value_sub hden, div_le_div_iff_of_pos_right hpos,
    div_left_inj' hpos.ne', Int.cast_le, Int.cast_inj]
  exact hnearest

end Binary64

/-! ### Decimals -/

/-- The exact value of a decimal. -/
def Decimal.value (d : Decimal) : ℚ := d.coefficient * 10 ^ d.exponent

namespace Decimal

variable {d : Decimal}

theorem denominator_pos (d : Decimal) : 0 < d.denominator := by
  rw [denominator, Nat.pow_eq]
  exact Nat.pow_pos (by decide)

theorem value_eq_div (d : Decimal) : d.value = d.numerator / d.denominator := by
  obtain ⟨coefficient, exponent⟩ := d
  rw [value, numerator, denominator, Nat.pow_eq, Nat.pow_eq]
  cases exponent with
  | ofNat n => simp
  | negSucc n =>
    have hnone : (Int.negSucc n).toNat = 0 := rfl
    have hplaces : (-Int.negSucc n).toNat = n + 1 := rfl
    rw [zpow_negSucc, hnone, hplaces, Nat.pow_zero, Nat.mul_one, div_eq_mul_inv]
    push_cast
    rfl

theorem value_nonneg (d : Decimal) : 0 ≤ d.value := by
  rw [value]
  positivity

theorem value_of_coefficient_eq_zero (h : d.coefficient = 0) : d.value = 0 := by
  rw [value, h, Nat.cast_zero, zero_mul]

theorem pow_le_value {n : Int} (hcoefficient : d.coefficient ≠ 0) (h : n ≤ d.exponent) :
    (10 : ℚ) ^ n ≤ d.value := by
  have hone : (1 : ℚ) ≤ d.coefficient := by exact_mod_cast Nat.pos_of_ne_zero hcoefficient
  calc (10 : ℚ) ^ n ≤ 10 ^ d.exponent := zpow_le_zpow_right₀ (by norm_num) h
    _ ≤ d.value := le_mul_of_one_le_left (by positivity) hone

theorem value_lt_pow {n : Int} (h : d.exponent + d.coefficient.log2 < n) :
    d.value < (10 : ℚ) ^ n := by
  have hlog : d.coefficient < 10 ^ (d.coefficient.log2 + 1) :=
    Nat.lt_log2_self.trans_le (Nat.pow_le_pow_left (by decide) _)
  have hcast : (d.coefficient : ℚ) < 10 ^ ((d.coefficient.log2 + 1 : Nat) : Int) := by
    rw [zpow_natCast]
    exact_mod_cast hlog
  calc d.value < 10 ^ ((d.coefficient.log2 + 1 : Nat) : Int) * 10 ^ d.exponent :=
        mul_lt_mul_of_pos_right hcast (by positivity)
    _ = 10 ^ ((d.coefficient.log2 + 1 : Nat) + d.exponent) := (zpow_add₀ (by norm_num) _ _).symm
    _ ≤ 10 ^ n := zpow_le_zpow_right₀ (by norm_num) (by omega)

end Decimal

namespace Binary64

/-- Infinity lies below every number of more than 400 places. -/
theorem value_infinity_le : value infinity ≤ (10 : ℚ) ^ (400 : Int) := by
  have hunits : units infinity ≤ 10 ^ 400 * unitsInOne := by decide +kernel
  have hpos : (0 : ℚ) < unitsInOne := by exact_mod_cast unitsInOne_pos
  rw [value, div_le_iff₀ hpos, zpow_ofNat]
  exact_mod_cast hunits

/-- Half a unit lies above every number without a digit in the first 400 places. -/
theorem two_mul_mul_unitsInOne_lt {v : ℚ} (hnonneg : 0 ≤ v) (h : v < (10 : ℚ) ^ (-400 : Int)) :
    2 * v * unitsInOne < 1 := by
  have hunits : 2 * unitsInOne ≤ 10 ^ 400 := by decide +kernel
  have hcast : (2 * unitsInOne : ℚ) ≤ 10 ^ (400 : Int) := by
    rw [zpow_ofNat]
    exact_mod_cast hunits
  calc 2 * v * unitsInOne = v * (2 * unitsInOne) := by ring
    _ ≤ v * 10 ^ (400 : Int) := mul_le_mul_of_nonneg_left hcast hnonneg
    _ < 10 ^ (-400 : Int) * 10 ^ (400 : Int) := mul_lt_mul_of_pos_right h (by positivity)
    _ = 1 := by rw [← zpow_add₀ (by norm_num)]; rfl

/-- What is read of a decimal is the nearest magnitude to its exact value. -/
theorem isNearest_nearest (d : Decimal) : IsNearest d.value (min (nearest d) infinity) := by
  unfold nearest
  split
  · rename_i hzero
    rw [d.value_of_coefficient_eq_zero hzero, ← value_zero]
    exact isNearest_value (Nat.zero_le _)
  · rename_i hcoefficient
    split
    · rename_i hlarge
      rw [min_self]
      exact isNearest_infinity (value_infinity_le.trans (Decimal.pow_le_value hcoefficient hlarge.le))
    · split
      · rename_i hsmall
        rw [Nat.zero_min]
        exact isNearest_zero d.value_nonneg
          (two_mul_mul_unitsInOne_lt d.value_nonneg (Decimal.value_lt_pow hsmall))
      · have hnearest := isNearest_ofUnits (d.numerator * unitsInOne) d.denominator_pos
        have hpos : (unitsInOne : ℚ) ≠ 0 := by exact_mod_cast unitsInOne_pos.ne'
        rwa [Nat.cast_mul, mul_div_right_comm, mul_div_cancel_right₀ _ hpos, ← d.value_eq_div]
          at hnearest

theorem nearest_eq_iff {d : Decimal} {m : Nat} (hm : m < infinity) :
    nearest d = m ↔ IsNearest d.value m := by
  constructor
  · rintro rfl
    have hnearest := isNearest_nearest d
    rwa [min_eq_left hm.le] at hnearest
  · intro h
    have hmin := (isNearest_nearest d).unique h
    rcases min_choice (nearest d) infinity with hleft | hright
    · exact hleft.symm.trans hmin
    · exact absurd (hright.symm.trans hmin) hm.ne'

theorem infinity_le_nearest_iff {d : Decimal} :
    infinity ≤ nearest d ↔ IsNearest d.value infinity := by
  have hnearest := isNearest_nearest d
  constructor
  · intro h
    rwa [min_eq_right h] at hnearest
  · intro h
    exact min_eq_right_iff.1 (hnearest.unique h)

theorem ofDecimal?_eq_some_iff {d : Decimal} {f : Binary64} :
    ofDecimal? d = some f ↔ f.negative = false ∧ f.isFinite ∧ IsNearest d.value f.magnitude := by
  obtain ⟨negative, magnitude, hlt⟩ := f
  simp only [ofDecimal?, isFinite, decide_eq_true_eq]
  constructor
  · intro h
    split at h
    · rename_i hfinite
      cases h
      exact ⟨rfl, hfinite, (nearest_eq_iff hfinite).1 rfl⟩
    · cases h
  · rintro ⟨rfl, hfinite, hnearest⟩
    have heq := (nearest_eq_iff hfinite).2 hnearest
    subst heq
    rw [dif_pos hfinite]

theorem ofDecimal?_eq_none_iff {d : Decimal} :
    ofDecimal? d = none ↔ IsNearest d.value infinity := by
  rw [← infinity_le_nearest_iff, ofDecimal?]
  split <;> simp_all

end Binary64

end SqlScan
