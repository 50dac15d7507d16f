import Mathlib.Tactic.FieldSimp
import Mathlib.Tactic.Ring
import SqlScan.Proofs.Binary64.Nearest
import SqlScan.Proofs.Numerals
import SqlScan.Rendering

/-!
# Digits and the numbers they say

Digits are read from left to right, so digits behind others multiply those by a power of ten and zeros
in front say nothing. The value of a numeral is said without its digits being put together first, and
it is the value of the decimal that they are put together to.

A binary64 number is written from a decimal that reads back: one that is taken from a grid was found to,
and where no grid has one the exact value is written, which is nearest to itself. The decimal is laid
out from its digits and the place of its point, in full or with a power of ten. Either way the text is
that of a numeral, and its value is that of the decimal: zeros in front of the digits or behind them
only fill places (`says_of_digits`). It has a fraction or an exponent, so it is not the numeral of an
integer.
-/

namespace SqlScan

/-! ### Numbers of digits -/

namespace Decimal

theorem natOfDigits_eq (digits : List Char) : natOfDigits digits = Nat.ofDigitChars 10 digits 0 := by
  simp only [natOfDigits, Nat.ofDigitChars, Nat.mul_comm]

theorem natOfDigits_append (ds es : List Char) :
    natOfDigits (ds ++ es) = natOfDigits ds * 10 ^ es.length + natOfDigits es := by
  rw [natOfDigits_eq, natOfDigits_eq, natOfDigits_eq, Nat.ofDigitChars_append,
    Nat.ofDigitChars_eq_ofDigitChars_zero, Nat.mul_comm]

theorem natOfDigits_toDigits (n : Nat) : natOfDigits (Nat.toDigits 10 n) = n := by
  rw [natOfDigits_eq, Nat.ofDigitChars_ten_toDigits]

theorem natOfDigits_replicate (n : Nat) : natOfDigits (List.replicate n '0') = 0 := by
  rw [natOfDigits_eq, Nat.ofDigitChars_replicate_zero, Nat.mul_zero]

end Decimal

namespace Numeral

/-- The exact value: the whole and the fraction, times the power of ten. -/
def value (n : Numeral) : ℚ :=
  (Decimal.natOfDigits n.whole + Decimal.natOfDigits n.fraction / 10 ^ n.fraction.length)
    * 10 ^ (n.exponent.map Exponent.value).getD 0

theorem value_decimal (n : Numeral) : n.decimal.value = n.value := by
  rw [Decimal.value, decimal, value, Decimal.natOfDigits_append, zpow_sub₀ (by norm_num), zpow_natCast]
  push_cast
  field_simp

theorem value_of_isInteger {n : Numeral} (h : n.isInteger) :
    n.value = Decimal.natOfDigits n.whole := by
  obtain ⟨whole, fraction, exponent⟩ := n
  obtain ⟨hfraction, hexponent⟩ : fraction = [] ∧ exponent = none := by simpa [isInteger] using h
  subst hfraction hexponent
  simp [value, Decimal.natOfDigits]

end Numeral

/-! ### Shortest digits -/

namespace Binary64

variable {tie : Tie} {m : Nat}

theorem nearest_of_onGrid? {exponent : Int} {d : Decimal} (h : onGrid? tie m exponent = some d) :
    nearest d = m := by
  have hfound := List.find?_some h
  exact beq_iff_eq.1 hfound

/-- Halves are written with as many decimal places. -/
theorem mul_five_pow (u places : Nat) :
    (u * Nat.pow 5 places : Nat) * (10 : ℚ) ^ (-(places : Int)) = u / (Nat.pow 2 places : Nat) := by
  have hten : (10 : ℚ) ^ places = 5 ^ places * 2 ^ places := by
    rw [← mul_pow]
    norm_num
  rw [Nat.pow_eq, Nat.pow_eq, zpow_neg, zpow_natCast, hten]
  push_cast
  field_simp

theorem value_exactly (m : Nat) : (exactly m).value = value m := by
  unfold exactly Decimal.value value unitsInOne
  -- the powers of so many places are not to be evaluated
  generalize unitPlaces = places
  exact mul_five_pow (units m) places

theorem nearest_exactly (hm : m < infinity) : nearest (exactly m) = m := by
  rw [nearest_eq_iff hm, value_exactly]
  exact isNearest_value hm.le

/-- The digits of a finite magnitude read back as the magnitude. -/
theorem nearest_shortest (tie : Tie) (hm : m < infinity) : nearest (shortest tie m) = m := by
  unfold shortest
  split
  · rename_i hzero
    rw [hzero]
    rfl
  · dsimp only
    cases hfound : (List.range 17).findSome? fun n => onGrid? tie m (places m - (n + 1 : Nat)) with
    | none => exact nearest_exactly hm
    | some d =>
      obtain ⟨n, -, hgrid⟩ := List.exists_of_findSome?_eq_some hfound
      exact nearest_of_onGrid? hgrid

end Binary64

/-! ### Digits and places -/

namespace Decimal

/-- The digits, with the point at that place, say the value of the decimal. -/
structure HasDigits (d : Decimal) (ds : List Char) (point : Int) : Prop where
  ne_nil : ds ≠ []
  isDigit : ∀ c ∈ ds, c.isDigit
  value : d.value = natOfDigits ds * 10 ^ (point - ds.length)

theorem isDigit_of_mem_replicate {n : Nat} : ∀ c ∈ List.replicate n '0', c.isDigit := by
  intro c hc
  rw [List.eq_of_mem_replicate hc]
  rfl

theorem isDigit_of_mem_toDigits {n : Nat} : ∀ c ∈ Nat.toDigits 10 n, c.isDigit := fun _ =>
  Nat.isDigit_of_mem_toDigits (by decide) le_rfl

/-- The zeros at the end of a text. -/
theorem exists_zeros (all : List Char) :
    ∃ zeros, all = (all.reverse.dropWhile (· = '0')).reverse ++ List.replicate zeros '0' := by
  have hzeros : ∀ c ∈ all.reverse.takeWhile (· = '0'), c = '0' := fun c hc => by
    simpa using List.mem_takeWhile_imp hc
  have hsplit := congrArg List.reverse
    (List.takeWhile_append_dropWhile (p := (· = '0')) (l := all.reverse))
  rw [List.eq_replicate_of_mem hzeros, List.reverse_append, List.reverse_reverse,
    List.reverse_replicate] at hsplit
  exact ⟨_, hsplit.symm⟩

theorem hasDigits_digits (d : Decimal) : d.HasDigits d.digits.1 d.digits.2 := by
  unfold digits
  split
  · rename_i hzero
    refine ⟨List.cons_ne_nil _ _, by simp, ?_⟩
    rw [value_of_coefficient_eq_zero hzero]
    simp [natOfDigits]
  · rename_i hcoefficient
    dsimp only
    obtain ⟨zeros, hall⟩ := exists_zeros (Nat.toDigits 10 d.coefficient)
    have hdigits := isDigit_of_mem_toDigits (n := d.coefficient)
    have hvalue := natOfDigits_toDigits d.coefficient
    generalize ((Nat.toDigits 10 d.coefficient).reverse.dropWhile (· = '0')).reverse = ds at hall ⊢
    generalize Nat.toDigits 10 d.coefficient = all at hall hdigits hvalue ⊢
    subst hall
    rw [natOfDigits_append, natOfDigits_replicate, List.length_replicate, Nat.add_zero] at hvalue
    refine ⟨?_, fun c hc => hdigits c (List.mem_append_left _ hc), ?_⟩
    · rintro rfl
      exact hcoefficient (by rw [← hvalue]; exact Nat.zero_mul _)
    · have hplaces : ((ds ++ List.replicate zeros '0').length + d.exponent - ds.length : Int)
          = zeros + d.exponent := by
        rw [List.length_append, List.length_replicate]
        omega
      rw [hplaces, zpow_add₀ (by norm_num), zpow_natCast, ← mul_assoc, value, ← hvalue]
      push_cast
      rfl

end Decimal

/-! ### Numerals that say a decimal -/

/-- The numeral has the value of the decimal, and it is no integer's. -/
structure Numeral.Says (n : Numeral) (d : Decimal) : Prop where
  wellFormed : n.WellFormed
  ne_nil : n.whole ≠ []
  parts : n.fraction ≠ [] ∨ n.exponent ≠ none
  digits : ∀ e ∈ n.exponent, e.digits ≠ []
  value : n.value = d.value

/-- Zeros around the digits do not change the value if the point stays at its place. -/
theorem Numeral.says_of_digits {n : Numeral} {d : Decimal} {ds : List Char} {point : Int}
    (h : d.HasDigits ds point) (zeros more : Nat)
    (hdigits : n.whole ++ n.fraction
      = List.replicate zeros '0' ++ (ds ++ List.replicate more '0'))
    (hplace : (n.exponent.map Exponent.value).getD 0 - n.fraction.length + more
      = point - ds.length)
    (hwhole : n.whole ≠ []) (hparts : n.fraction ≠ [] ∨ n.exponent ≠ none)
    (hexponent : ∀ e ∈ n.exponent, e.WellFormed ∧ e.digits ≠ []) : n.Says d := by
  have hisDigit : ∀ c ∈ n.whole ++ n.fraction, c.isDigit := by
    intro c hc
    rw [hdigits, List.mem_append, List.mem_append] at hc
    rcases hc with hc | hc | hc
    · exact Decimal.isDigit_of_mem_replicate c hc
    · exact h.isDigit c hc
    · exact Decimal.isDigit_of_mem_replicate c hc
  have hwell : n.WellFormed :=
    ⟨fun c hc => hisDigit c (List.mem_append_left _ hc),
      fun c hc => hisDigit c (List.mem_append_right _ hc), fun e he => (hexponent e he).1⟩
  refine ⟨hwell, hwhole, hparts, fun e he => (hexponent e he).2, ?_⟩
  rw [h.value, ← value_decimal, Decimal.value, decimal, hdigits, ← hplace, zpow_add₀ (by norm_num),
    zpow_natCast, Decimal.natOfDigits_append, Decimal.natOfDigits_append,
    Decimal.natOfDigits_replicate, Decimal.natOfDigits_replicate, List.length_replicate]
  push_cast
  ring

theorem Numeral.text_fraction {whole fraction : List Char} (h : fraction ≠ []) :
    text ⟨whole, fraction, none⟩ = whole ++ '.' :: fraction := by
  simp [text, fractionText, h]

theorem Numeral.text_exponent (whole fraction : List Char) (e : Exponent) :
    text ⟨whole, fraction, some e⟩ = whole ++ fractionText fraction ++ e.text := rfl

namespace Decimal

theorem toList_toString_ofNat (n : Nat) : (toString (n : Int)).toList = Nat.toDigits 10 n :=
  Nat.toList_repr

theorem toList_toString_negSucc (n : Nat) :
    (toString (Int.negSucc n)).toList = '-' :: Nat.toDigits 10 (n + 1) := by
  rw [Int.toString_eq_repr, Int.repr, String.toList_append, Nat.toList_repr]
  rfl

/-- A power of ten is written as an exponent. -/
theorem exists_exponent (plus : Bool) (power : Int) :
    ∃ e : Exponent, e.text = Decimal.power plus power ∧ e.WellFormed ∧ e.digits ≠ [] ∧
      e.value = power := by
  cases power with
  | ofNat n =>
    refine ⟨⟨'e', if plus then some '+' else none, Nat.toDigits 10 n⟩, ?_,
      ⟨.inl rfl, by cases plus <;> simp, isDigit_of_mem_toDigits⟩, Nat.toDigits_ne_nil, ?_⟩
    · rw [power, Exponent.text, Int.ofNat_eq_natCast, toList_toString_ofNat]
      cases plus <;> simp
    · have hsign : (if plus then some '+' else none) ≠ some '-' := by cases plus <;> decide
      rw [Exponent.value, if_neg hsign, natOfDigits_toDigits]
      rfl
  | negSucc n =>
    refine ⟨⟨'e', some '-', Nat.toDigits 10 (n + 1)⟩, ?_,
      ⟨.inl rfl, by simp, isDigit_of_mem_toDigits⟩, Nat.toDigits_ne_nil, ?_⟩
    · have hneg : ¬ (plus ∧ 0 ≤ Int.negSucc n) := fun h => absurd h.2 (by omega)
      rw [power, if_neg hneg, Exponent.text, toList_toString_negSucc]
      rfl
    · rw [Exponent.value, if_pos rfl, natOfDigits_toDigits]
      rfl

/-- Written out in full, a decimal is the text of a numeral that says it. -/
theorem exists_positional (d : Decimal) : ∃ n : Numeral, n.text = d.positional ∧ n.Says d := by
  have h := d.hasDigits_digits
  unfold positional
  generalize d.digits = digits at h ⊢
  obtain ⟨ds, point⟩ := digits
  dsimp only at h ⊢
  have hpos := List.length_pos_iff.2 h.ne_nil
  split
  · have hfraction : List.replicate (-point).toNat '0' ++ ds ≠ [] :=
      List.append_ne_nil_of_right_ne_nil _ h.ne_nil
    refine ⟨⟨['0'], _, none⟩, Numeral.text_fraction hfraction, Numeral.says_of_digits h
      ((-point).toNat + 1) 0 ?_ ?_ (List.cons_ne_nil _ _) (.inl hfraction) (by simp)⟩
    · simp [List.replicate_succ]
    · simp only [Option.map_none, Option.getD_none, List.length_append, List.length_replicate]
      omega
  · rename_i hpoint
    obtain ⟨place, rfl⟩ := Int.eq_ofNat_of_zero_le (show 0 ≤ point by omega)
    rw [Int.toNat_natCast]
    rcases Nat.lt_or_ge place ds.length with hlt | hge
    · have hfraction : ds.drop place ≠ [] := by
        rw [← List.length_pos_iff, List.length_drop]
        omega
      have hbefore : place - (ds.take place).length = 0 := by
        rw [List.length_take]
        omega
      rw [if_neg (by simpa using hfraction), hbefore, List.replicate_zero, List.append_nil]
      refine ⟨⟨_, _, none⟩, Numeral.text_fraction hfraction,
        Numeral.says_of_digits h 0 0 ?_ ?_ ?_ (.inl hfraction) (by simp)⟩
      · simp
      · simp only [Option.map_none, Option.getD_none, List.length_drop]
        omega
      · rw [← List.length_pos_iff, List.length_take]
        omega
    · have hafter : (ds.drop place).isEmpty := by simpa using hge
      rw [if_pos hafter, List.take_of_length_le hge]
      refine ⟨⟨_, _, none⟩, Numeral.text_fraction (List.cons_ne_nil _ _),
        Numeral.says_of_digits h 0 (place - ds.length + 1) ?_ ?_ ?_
          (.inl (List.cons_ne_nil _ _)) (by simp)⟩
      · simp [List.replicate_succ']
      · simp only [Option.map_none, Option.getD_none, List.length_singleton]
        omega
      · exact List.append_ne_nil_of_left_ne_nil h.ne_nil _

/-- With a power of ten, a decimal is the text of a numeral that says it. -/
theorem exists_scientific (plus : Bool) (d : Decimal) :
    ∃ n : Numeral, n.text = d.scientific plus ∧ n.Says d := by
  have h := d.hasDigits_digits
  unfold scientific
  generalize d.digits = digits at h ⊢
  obtain ⟨ds, point⟩ := digits
  dsimp only at h ⊢
  obtain ⟨c, cs, rfl⟩ := List.exists_cons_of_ne_nil h.ne_nil
  obtain ⟨e, htext, hwell, hdigits, hvalue⟩ := exists_exponent plus (point - 1)
  have hfraction : Numeral.fractionText cs
      = if (c :: cs).length ≤ 1 then [] else '.' :: cs := by
    simp [Numeral.fractionText]
  refine ⟨⟨[c], cs, some e⟩, ?_, Numeral.says_of_digits h 0 0 (by simp) ?_ (List.cons_ne_nil _ _)
    (.inr (Option.some_ne_none e)) (by simpa using ⟨hwell, hdigits⟩)⟩
  · rw [Numeral.text_exponent, hfraction, htext]
    rfl
  · simp only [Option.map_some, Option.getD_some, List.length_cons, hvalue]
    omega

end Decimal

end SqlScan
