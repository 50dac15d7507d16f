import Mathlib.Data.List.TakeWhile
import SqlScan.Numeral
import SqlScan.Proofs.Characters

/-!
# Numerals read from what is written

A numeral is read back from its own text, whatever its size and also if its exponent lacks digits,
provided that the text behind it goes on with none of its parts: no digit, no exponent unless there is
one already, no point with a digit unless there is a fraction or an exponent already, no sign right
behind the letter of an exponent. What stands behind a numeral where it is read goes on with none.
-/

namespace SqlScan

structure Exponent.WellFormed (e : Exponent) : Prop where
  letter : e.letter = 'e' ∨ e.letter = 'E'
  sign : ∀ s ∈ e.sign, s = '+' ∨ s = '-'
  digits : ∀ c ∈ e.digits, c.isDigit

/-- The text `rest` does not begin with a sign that the exponent still lacks. -/
def Exponent.SignedBefore (rest : List Char) (e : Exponent) : Prop :=
  e.digits = [] → e.sign = none → ∀ c ∈ rest.head?, ¬ (c = '+' ∨ c = '-')

namespace Numeral

structure WellFormed (n : Numeral) : Prop where
  whole : ∀ c ∈ n.whole, c.isDigit
  fraction : ∀ c ∈ n.fraction, c.isDigit
  exponent : ∀ e ∈ n.exponent, e.WellFormed

/-- The text `rest` does not go on with the numeral. -/
structure EndsBefore (rest : List Char) (n : Numeral) : Prop where
  digit : ∀ c ∈ rest.head?, c.isDigit = false
  letter : n.exponent = none → Exponent.read? rest = none
  point : n.isInteger → (fraction? rest).1 = []
  sign : ∀ e ∈ n.exponent, e.SignedBefore rest

end Numeral

/-! ### Exponents -/

namespace Exponent

theorem read?_eq_none_of_head {rest : List Char} (h : ∀ c ∈ rest.head?, c ≠ 'e' ∧ c ≠ 'E') :
    read? rest = none := by
  cases rest with
  | nil => rfl
  | cons c cs =>
    obtain ⟨hlower, hupper⟩ := h c rfl
    simp [read?, hlower, hupper]

theorem wellFormed_of_read? {cs rest : List Char} {e : Exponent} (h : read? cs = some (e, rest)) :
    e.WellFormed := by
  unfold read? at h
  split at h
  · simp at h
  · rename_i c tail
    split at h
    · rename_i hletter
      split at h
      · split at h
        · rename_i s ds hsign
          obtain ⟨rfl, -⟩ := Prod.mk.inj (Option.some.inj h)
          exact ⟨hletter, by simpa using hsign, fun d hd => List.mem_takeWhile_imp hd⟩
        · obtain ⟨rfl, -⟩ := Prod.mk.inj (Option.some.inj h)
          exact ⟨hletter, by simp, fun d hd => List.mem_takeWhile_imp hd⟩
      · obtain ⟨rfl, -⟩ := Prod.mk.inj (Option.some.inj h)
        exact ⟨hletter, by simp, by simp⟩
    · simp at h

/-- Behind the letter of an exponent without a sign no sign is read. -/
theorem SignedBefore.head {e : Exponent} {rest : List Char} (h : e.SignedBefore rest)
    (hdigits : ∀ c ∈ e.digits, c.isDigit) (hsign : e.sign = none) :
    ∀ c ∈ (e.digits ++ rest).head?, ¬ (c = '+' ∨ c = '-') := by
  cases hall : e.digits with
  | nil => exact h hall hsign
  | cons d ds =>
    intro c hc hc_sign
    rw [List.cons_append, List.head?_cons, Option.mem_some_iff] at hc
    have hd : c.isDigit := hdigits c (by simp [hall, hc])
    rcases hc_sign with rfl | rfl <;> exact absurd hd (by decide)

theorem read?_text_append {e : Exponent} {rest : List Char} (he : e.WellFormed)
    (hsigned : e.SignedBefore rest) (hrest : ∀ c ∈ rest.head?, c.isDigit = false) :
    read? (e.text ++ rest) = some (e, rest) := by
  obtain ⟨letter, sign, digits⟩ := e
  obtain ⟨hletter, hsign, hdigit⟩ := he
  obtain ⟨htake, hdrop⟩ := Text.span_run hdigit hrest
  cases sign with
  | none =>
    have hnosign := hsigned.head hdigit rfl
    simp only [text, Option.toList_none, List.nil_append, List.cons_append, read?]
    rw [if_pos hletter]
    split
    · rename_i s ds hcs
      rw [if_neg (hnosign s (by rw [hcs]; rfl)), htake, hdrop]
    · rename_i hcs
      obtain ⟨rfl, rfl⟩ := List.append_eq_nil_iff.1 hcs
      rfl
  | some s =>
    simp only [text, Option.toList_some, List.cons_append, List.nil_append, read?]
    rw [if_pos hletter, if_pos (hsign s rfl), htake, hdrop]

theorem head_of_read?_eq_none {rest : List Char} (h : read? rest = none) :
    ∀ c ∈ rest.head?, c ≠ 'e' ∧ c ≠ 'E' := by
  intro c hc
  obtain ⟨cs, rfl⟩ := List.head?_eq_some_iff.1 (Option.mem_def.1 hc)
  rw [← not_or]
  intro hletter
  simp only [read?, if_pos hletter] at h
  split at h
  · split at h <;> cases h
  · cases h

/-- What an exponent leaves begins with none of the parts that it looks for. -/
theorem rest_of_read? {cs rest : List Char} {e : Exponent} (h : read? cs = some (e, rest)) :
    (∀ c ∈ rest.head?, c.isDigit = false) ∧ e.SignedBefore rest := by
  unfold read? at h
  split at h
  · cases h
  · split at h
    · split at h
      · rename_i s ds
        split at h
        · obtain ⟨rfl, rfl⟩ := Prod.mk.inj (Option.some.inj h)
          exact ⟨Text.head_dropWhile _ ds, fun _ hsign => by cases hsign⟩
        · rename_i hsign
          obtain ⟨rfl, rfl⟩ := Prod.mk.inj (Option.some.inj h)
          refine ⟨Text.head_dropWhile _ _, ?_⟩
          intro hdigits _ c hc
          -- without digits nothing was dropped, and the character behind the letter is no sign
          have hwhole := List.takeWhile_append_dropWhile (p := Char.isDigit) (l := s :: ds)
          simp only at hdigits
          rw [hdigits, List.nil_append] at hwhole
          rw [hwhole, List.head?_cons, Option.mem_some_iff] at hc
          exact hc ▸ hsign
      · obtain ⟨rfl, rfl⟩ := Prod.mk.inj (Option.some.inj h)
        exact ⟨by simp, fun _ _ => by simp⟩
    · cases h

end Exponent

/-! ### Fractions -/

namespace Numeral

theorem fraction?_of_nil {cs : List Char} (h : (fraction? cs).1 = []) :
    fraction? cs = ([], cs) := by
  unfold fraction? at h ⊢
  split
  · split
    · rename_i hdigit
      simp [hdigit] at h
    · rfl
  · rfl

theorem fraction?_of_head {cs : List Char} (h : cs.head? ≠ some '.') : (fraction? cs).1 = [] := by
  unfold fraction?
  split
  · simp at h
  · rfl

/-- A fraction begins at a point if a digit stands behind it. -/
theorem fraction?_point_iff {after : List Char} :
    (fraction? ('.' :: after)).1 = [] ↔ ∀ c ∈ after.head?, c.isDigit = false := by
  cases after with
  | nil => simp [fraction?]
  | cons c cs => by_cases hdigit : c.isDigit <;> simp [fraction?, hdigit]

theorem fraction?_text_append {fraction rest : List Char} (hfraction : ∀ c ∈ fraction, c.isDigit)
    (hrest : ∀ c ∈ rest.head?, c.isDigit = false)
    (hpoint : fraction = [] → (fraction? rest).1 = []) :
    fraction? (fractionText fraction ++ rest) = (fraction, rest) := by
  cases fraction with
  | nil => exact fraction?_of_nil (hpoint rfl)
  | cons d ds =>
    have hdigits : ∀ c ∈ ds, c.isDigit := fun c hc => hfraction c (by simp [hc])
    obtain ⟨htake, hdrop⟩ := Text.span_run hdigits hrest
    simp [fractionText, fraction?, hfraction d, htake, hdrop]

theorem digits_fraction? (cs : List Char) : ∀ c ∈ (fraction? cs).1, c.isDigit := by
  unfold fraction?
  split
  · rename_i c cs
    split
    · rename_i hc
      intro d hd
      rcases List.mem_cons.1 hd with rfl | hd
      · exact hc
      · exact List.mem_takeWhile_imp hd
    · simp
  · simp

theorem head_fraction? {cs : List Char} (h : ∀ c ∈ cs.head?, c.isDigit = false) :
    ∀ c ∈ (fraction? cs).2.head?, c.isDigit = false := by
  unfold fraction?
  split
  · split
    · exact Text.head_dropWhile _ _
    · exact h
  · exact h

/-! ### Numerals -/

theorem wellFormed_read (cs : List Char) : (read cs).1.WellFormed := by
  have hwhole : ∀ c ∈ cs.takeWhile Char.isDigit, c.isDigit :=
    fun c hc => List.mem_takeWhile_imp hc
  have hfraction := digits_fraction? (cs.dropWhile Char.isDigit)
  simp only [read]
  split
  · rename_i e rest h
    refine ⟨hwhole, hfraction, ?_⟩
    intro e' he'
    rw [Option.mem_some_iff] at he'
    exact he' ▸ Exponent.wellFormed_of_read? h
  · exact ⟨hwhole, hfraction, by simp⟩

/-- The text of the exponent, if there is one, and of what stands behind the numeral. -/
def tail (n : Numeral) (rest : List Char) : List Char :=
  (n.exponent.map Exponent.text).getD [] ++ rest

variable {n : Numeral} {rest : List Char}

theorem head_tail (hn : n.WellFormed) (hend : n.EndsBefore rest) :
    ∀ c ∈ (n.tail rest).head?, c.isDigit = false := by
  cases hexponent : n.exponent with
  | none => simpa [tail, hexponent] using hend.digit
  | some e =>
    intro c hc
    have hc : e.letter = c := by simpa [tail, hexponent, Exponent.text] using hc
    subst hc
    rcases (hn.exponent e hexponent).letter with h | h <;> rw [h] <;> decide

theorem read?_tail (hn : n.WellFormed) (hend : n.EndsBefore rest) :
    Exponent.read? (n.tail rest) = n.exponent.map fun e => (e, rest) := by
  cases hexponent : n.exponent with
  | none => simpa [tail, hexponent] using hend.letter hexponent
  | some e =>
    simpa [tail, hexponent] using
      Exponent.read?_text_append (hn.exponent e hexponent) (hend.sign e hexponent) hend.digit

theorem fraction?_tail (hn : n.WellFormed) (hend : n.EndsBefore rest) (hnone : n.fraction = []) :
    (fraction? (n.tail rest)).1 = [] := by
  cases hexponent : n.exponent with
  | none => simpa [tail, hexponent] using hend.point (by simp [isInteger, hnone, hexponent])
  | some e =>
    apply fraction?_of_head
    rcases (hn.exponent e hexponent).letter with h | h <;>
      simp [tail, hexponent, Exponent.text, h]

theorem read_text_append (hn : n.WellFormed) (hend : n.EndsBefore rest) :
    read (n.text ++ rest) = (n, rest) := by
  have htext : n.text ++ rest = n.whole ++ (fractionText n.fraction ++ n.tail rest) := by
    simp [text, tail]
  have hstop : ∀ c ∈ (fractionText n.fraction ++ n.tail rest).head?, c.isDigit = false := by
    cases hfraction : n.fraction with
    | nil => exact head_tail hn hend
    | cons d ds => simp [fractionText]
  obtain ⟨htake, hdrop⟩ := Text.span_run hn.whole hstop
  have hfraction := fraction?_text_append hn.fraction (head_tail hn hend) (fraction?_tail hn hend)
  have hexponent := read?_tail hn hend
  simp only [htext, read, htake, hdrop, hfraction, hexponent]
  obtain ⟨whole, fraction, exponent⟩ := n
  cases exponent with
  | none => simp [tail]
  | some e => rfl

/-- What a numeral leaves goes on with none of its parts. -/
theorem endsBefore_read (cs : List Char) : (read cs).1.EndsBefore (read cs).2 := by
  simp only [read]
  split
  · rename_i e rest h
    obtain ⟨hdigit, hsigned⟩ := Exponent.rest_of_read? h
    refine ⟨hdigit, by simp, by simp [isInteger], ?_⟩
    intro e' he'
    rw [Option.mem_some_iff] at he'
    exact he' ▸ hsigned
  · rename_i hletter
    refine ⟨head_fraction? (Text.head_dropWhile _ cs), fun _ => hletter, ?_, by simp⟩
    intro hinteger
    have hnil : (fraction? (cs.dropWhile Char.isDigit)).1 = [] := by
      simpa [isInteger] using hinteger
    have hrest : (fraction? (cs.dropWhile Char.isDigit)).2 = cs.dropWhile Char.isDigit := by
      rw [fraction?_of_nil hnil]
    show (fraction? (fraction? (cs.dropWhile Char.isDigit)).2).1 = []
    rw [hrest, hnil]

end Numeral

end SqlScan
