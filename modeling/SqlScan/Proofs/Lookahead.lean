import SqlScan.Proofs.Names
import SqlScan.Proofs.Numerals

/-!
# What is seen behind a token

A reader looks behind its token at one character, at a point with a digit, or at a dot with the whole
word behind it. So a text can stand for another behind a token if it shows no more than the other
does in these places; a blank shows nothing. Three texts stand for a text: the text itself, a text
that is apart, and the text with more behind it that is apart.
-/

namespace SqlScan

namespace Text

/-- The text `rest'` shows a reader nothing that `rest` does not show: blanks apart it begins with
the same character, and if `rest` begins with a reserved word it begins with the same word. -/
structure LooksLike (rest rest' : List Char) : Prop where
  head : ∀ c ∈ rest'.head?, isBlank c ∨ c ∈ rest.head?
  word : ∀ c ∈ rest'.head?, Word.isStart c → Word.isReserved (rest.takeWhile Word.isPart) →
    rest'.takeWhile Word.isPart = rest.takeWhile Word.isPart

/-- The text `rest'` shows nothing new behind a token, nor behind a token and a dot. -/
structure StandsFor (rest rest' : List Char) : Prop extends LooksLike rest rest' where
  dot : ∀ after', rest' = '.' :: after' → ∃ after, rest = '.' :: after ∧ LooksLike after after'

variable {rest rest' : List Char}

/-! ### Texts that look alike -/

theorem LooksLike.refl (rest : List Char) : LooksLike rest rest where
  head _ hc := .inr hc
  word _ _ _ _ := rfl

theorem LooksLike.of_apart (h : Apart rest') (rest : List Char) : LooksLike rest rest' where
  head c hc := .inl (h c hc)
  word c hc hstart := by
    rw [isStart_of_isBlank (h c hc)] at hstart
    cases hstart

theorem takeWhile_isPart_append {tail : List Char} (h : Apart tail) (rest : List Char) :
    (rest ++ tail).takeWhile Word.isPart = rest.takeWhile Word.isPart := by
  have htail : tail.takeWhile Word.isPart = [] := by
    cases tail with
    | nil => rfl
    | cons c cs => exact List.takeWhile_cons_of_neg (by simp [isPart_of_isBlank (h c rfl)])
  rw [List.takeWhile_append]
  split
  · rename_i hwhole
    rw [htail, List.append_nil, (List.takeWhile_prefix _).eq_of_length hwhole]
  · rfl

theorem LooksLike.append {tail : List Char} (h : Apart tail) (rest : List Char) :
    LooksLike rest (rest ++ tail) where
  head c hc := by
    cases rest with
    | nil => exact .inl (h c hc)
    | cons d ds => exact .inr hc
  word _ _ _ _ := takeWhile_isPart_append h rest

/-- A class without blanks that `rest` does not begin with, `rest'` does not begin with either. -/
theorem LooksLike.head_of {p : Char → Prop} (h : LooksLike rest rest')
    (hblank : ∀ c, isBlank c → p c) (hrest : ∀ c ∈ rest.head?, p c) :
    ∀ c ∈ rest'.head?, p c := by
  intro c hc
  rcases h.head c hc with hc | hc
  · exact hblank c hc
  · exact hrest c hc

theorem LooksLike.head_ne {c : Char} (h : LooksLike rest rest') (hc : isBlank c = false)
    (hrest : rest.head? ≠ some c) : rest'.head? ≠ some c := by
  intro hhead
  rcases h.head c hhead with hblank | hmem
  · rw [hc] at hblank
    cases hblank
  · exact hrest hmem

/-! ### Texts that stand for another -/

theorem StandsFor.refl (rest : List Char) : StandsFor rest rest where
  toLooksLike := .refl rest
  dot after' h := ⟨after', h, .refl after'⟩

theorem StandsFor.of_apart (h : Apart rest') (rest : List Char) : StandsFor rest rest' where
  toLooksLike := .of_apart h rest
  dot after' hdot := by
    subst hdot
    exact absurd rfl (h.head_ne (by decide))

theorem StandsFor.append {tail : List Char} (h : Apart tail) (rest : List Char) :
    StandsFor rest (rest ++ tail) where
  toLooksLike := .append h rest
  dot after' hdot := by
    cases rest with
    | nil =>
      rw [List.nil_append] at hdot
      subst hdot
      exact absurd rfl (h.head_ne (by decide))
    | cons c cs =>
      obtain ⟨rfl, rfl⟩ := List.cons.inj hdot
      exact ⟨cs, rfl, .append h cs⟩

end Text

open Text (StandsFor)

variable {rest rest' : List Char}

/-! ### Names -/

theorem Segment.EndsBefore.of_standsFor {s : Segment} (hend : s.EndsBefore rest)
    (h : StandsFor rest rest') : s.EndsBefore rest' := by
  cases s with
  | bare word => exact h.head_of (fun _ hc => Text.isPart_of_isBlank hc) hend
  | quoted value => exact h.head_ne (by decide) hend

/-- A name that ends before a text ends before a text that stands for it. -/
theorem Name.continuation_of_standsFor (hrest : Name.continuation rest = .complete [] rest)
    (h : StandsFor rest rest') : Name.continuation rest' = .complete [] rest' := by
  by_cases hdot : rest'.head? = some '.'
  · obtain ⟨after', rfl⟩ := List.head?_eq_some_iff.1 hdot
    obtain ⟨after, rfl, hafter⟩ := h.dot after' rfl
    obtain ⟨hquote, hword⟩ := continuation_dot_iff.1 hrest
    rw [continuation_dot_iff]
    refine ⟨hafter.head_ne (by decide) hquote, ?_⟩
    intro c hc hstart
    have hreserved : Word.isReserved (after.takeWhile Word.isPart) := by
      rcases hafter.head c hc with hblank | hc
      · rw [Text.isStart_of_isBlank hblank] at hstart
        cases hstart
      · exact hword c hc hstart
    rw [hafter.word c hc hstart hreserved]
    exact hreserved
  · exact continuation_of_head hdot

/-! ### Numerals -/

theorem Numeral.EndsBefore.of_standsFor {n : Numeral} (hend : n.EndsBefore rest)
    (h : StandsFor rest rest') : n.EndsBefore rest' where
  digit := h.head_of (fun _ hc => Text.isDigit_of_isBlank hc) hend.digit
  letter hnone := by
    apply Exponent.read?_eq_none_of_head
    apply h.head_of _ (Exponent.head_of_read?_eq_none (hend.letter hnone))
    intro c hc
    constructor <;> rintro rfl <;> exact absurd hc (by decide)
  point hinteger := by
    by_cases hdot : rest'.head? = some '.'
    · obtain ⟨after', rfl⟩ := List.head?_eq_some_iff.1 hdot
      obtain ⟨after, rfl, hafter⟩ := h.dot after' rfl
      have hafter_digit := fraction?_point_iff.1 (hend.point hinteger)
      exact fraction?_point_iff.2
        (hafter.head_of (fun _ hc => Text.isDigit_of_isBlank hc) hafter_digit)
    · exact fraction?_of_head hdot
  sign e he hdigits hsign := by
    apply h.head_of _ (hend.sign e he hdigits hsign)
    rintro c hc (rfl | rfl) <;> exact absurd hc (by decide)

end SqlScan
