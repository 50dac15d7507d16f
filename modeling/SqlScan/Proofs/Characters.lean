import SqlScan.Word

/-!
# Classes of characters

Blanks are apart from everything that a token is made of after its first character, so a blank ends
every token. A text is `Apart` if it is empty or begins with a blank: such a text can be put behind
any token. A run of a class is read whole exactly if the character behind it is not of the class.
-/

namespace SqlScan.Text

/-- Whether some of the code points from `low` to `high` may be in the set. -/
def Ranges.meets (low high : Nat) : Ranges → Bool
  | [] => false
  | (first, last) :: more =>
    if last < low then Ranges.meets low high more else first ≤ high || last < high

theorem Ranges.meets_of_holds {r : Ranges} {n low high : Nat} (h : r.holds n) (hlow : low ≤ n)
    (hhigh : n ≤ high) : r.meets low high := by
  fun_induction Ranges.holds r n with
  | case1 => simp at h
  | case2 first last more n hlast =>
    have hfirst : first ≤ n := by simpa using h
    rw [meets, if_neg (by omega), Bool.or_eq_true, decide_eq_true_eq]
    exact .inl (Nat.le_trans hfirst hhigh)
  | case3 first last more n hlast ih =>
    rw [meets]
    split
    · exact ih h hlow hhigh
    · rw [Bool.or_eq_true, decide_eq_true_eq, decide_eq_true_eq]
      exact .inr (by omega)

theorem Ranges.holds_eq_false {r : Ranges} {n low high : Nat} (h : r.meets low high = false)
    (hlow : low ≤ n) (hhigh : n ≤ high) : r.holds n = false := by
  rw [Bool.eq_false_iff] at h ⊢
  exact fun hholds => h (meets_of_holds hholds hlow hhigh)

theorem Ranges.exists_of_holds {r : Ranges} {n : Nat} (h : r.holds n) :
    ∃ range ∈ r, range.1 ≤ n ∧ n ≤ range.2 := by
  fun_induction Ranges.holds r n with
  | case1 => simp at h
  | case2 first last more n hlast =>
    exact ⟨(first, last), List.mem_cons_self, by simpa using h, hlast⟩
  | case3 first last more n hlast ih =>
    obtain ⟨range, hmem, hrange⟩ := ih h
    exact ⟨range, List.mem_cons_of_mem _ hmem, hrange⟩

theorem not_letter_or_number_of_mem_blank :
    ∀ range ∈ blank, alphabetic.meets range.1 range.2 = false ∧
      numeric.meets range.1 range.2 = false := by
  decide +kernel

theorem isPart_of_isBlank {c : Char} (h : isBlank c) : Word.isPart c = false := by
  obtain ⟨range, hmem, hlow, hhigh⟩ := Ranges.exists_of_holds h
  obtain ⟨hletters, hnumbers⟩ := not_letter_or_number_of_mem_blank range hmem
  have hletter := Ranges.holds_eq_false hletters hlow hhigh
  have hnumber := Ranges.holds_eq_false hnumbers hlow hhigh
  have hunderscore : c ≠ '_' := by
    intro hc
    subst hc
    exact absurd h (by decide)
  simp [Word.isPart, isAlphabetic, isNumeric, hletter, hnumber, hunderscore]

theorem isDigit_of_isBlank {c : Char} (h : isBlank c) : c.isDigit = false := by
  have hnone : blank.meets 48 57 = false := by decide
  rw [Bool.eq_false_iff, Ne, Char.isDigit_iff_toNat]
  intro ⟨hlow, hhigh⟩
  rw [isBlank, Ranges.holds_eq_false hnone hlow hhigh] at h
  cases h

theorem isStart_of_isDigit {c : Char} (h : c.isDigit) : Word.isStart c = false := by
  have hnone : alphabetic.meets 48 57 = false := by decide
  obtain ⟨hlow, hhigh⟩ := Char.isDigit_iff_toNat.1 h
  have hletter := Ranges.holds_eq_false hnone hlow hhigh
  have hunderscore : c ≠ '_' := by
    intro hc
    subst hc
    exact absurd h (by decide)
  simp [Word.isStart, isAlphabetic, hletter, hunderscore]

/-- Nothing, or a text that begins with a blank. -/
def Apart (rest : List Char) : Prop := ∀ c ∈ rest.head?, isBlank c

theorem Apart.nil : Apart [] := by
  intro c hc
  simp at hc

theorem Apart.cons {c : Char} (h : isBlank c) (cs : List Char) : Apart (c :: cs) := by
  intro d hd
  rw [List.head?_cons, Option.mem_some_iff] at hd
  exact hd ▸ h

theorem Apart.head_ne {rest : List Char} (h : Apart rest) {c : Char} (hc : isBlank c = false) :
    rest.head? ≠ some c := by
  intro hhead
  exact absurd (h c hhead) (by simp [hc])

theorem span_run {p : Char → Bool} {run rest : List Char} (hrun : ∀ c ∈ run, p c)
    (hstop : ∀ c ∈ rest.head?, p c = false) :
    (run ++ rest).takeWhile p = run ∧ (run ++ rest).dropWhile p = rest := by
  rw [List.takeWhile_append_of_pos hrun, List.dropWhile_append_of_pos hrun]
  cases rest with
  | nil => simp
  | cons c cs => simp [hstop c rfl]

theorem head_dropWhile (p : Char → Bool) (cs : List Char) :
    ∀ c ∈ (cs.dropWhile p).head?, p c = false := by
  intro c hc
  have hhead := List.head?_dropWhile_not p cs
  rw [Option.mem_def.1 hc] at hhead
  simpa using hhead

end SqlScan.Text
