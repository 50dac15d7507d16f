import SqlScan.Proofs.Digits
import SqlScan.Proofs.LetterCase
import SqlScan.Settings.Basic

/-!
# What setting texts say

A setting text is read without the blanks around it (`trim_eq_iff`). What is left names a mode, the case
of ASCII letters apart, or says a limit in digits, with a plus sign in front or without one. Digits are
read from the left, and reading ends with them or at the first character that settles that there is no
number; that character alone decides which fault is reported, so a text has one fault at most.
-/

namespace SqlScan

/-! ### Trimmed texts -/

namespace Text

/-- The text is the core with blanks around it, and the core itself neither begins nor ends with one. -/
structure Trims (text core : List Char) : Prop where
  around : ∃ before after, text = before ++ core ++ after ∧
    (∀ c ∈ before, isBlank c) ∧ ∀ c ∈ after, isBlank c
  head : ∀ c ∈ core.head?, isBlank c = false
  last : ∀ c ∈ core.getLast?, isBlank c = false

theorem trims_trim (text : List Char) : Trims text (trim text) := by
  have hfront := List.takeWhile_append_dropWhile (p := isBlank) (l := text)
  have hbefore : ∀ c ∈ text.takeWhile isBlank, isBlank c := fun _ => List.mem_takeWhile_imp
  have hhead := head_dropWhile isBlank text
  unfold trim
  generalize text.dropWhile isBlank = rest at hfront hhead ⊢
  have hback := List.takeWhile_append_dropWhile (p := isBlank) (l := rest.reverse)
  have hafter : ∀ c ∈ rest.reverse.takeWhile isBlank, isBlank c := fun _ => List.mem_takeWhile_imp
  have hlast := head_dropWhile isBlank rest.reverse
  generalize rest.reverse.dropWhile isBlank = back at hback hlast ⊢
  have hrest : rest = back.reverse ++ (rest.reverse.takeWhile isBlank).reverse := by
    rw [← List.reverse_append, hback, List.reverse_reverse]
  refine ⟨⟨text.takeWhile isBlank, (rest.reverse.takeWhile isBlank).reverse, ?_, hbefore, ?_⟩, ?_, ?_⟩
  · rw [List.append_assoc, ← hrest, hfront]
  · intro c hc
    exact hafter c (List.mem_reverse.1 hc)
  · intro c hc
    obtain ⟨cs, hcore⟩ := List.head?_eq_some_iff.1 hc
    exact hhead c (by rw [hrest, hcore]; rfl)
  · intro c hc
    exact hlast c (by rwa [List.getLast?_reverse] at hc)

theorem Trims.trim_eq {text core : List Char} (h : Trims text core) : trim text = core := by
  obtain ⟨⟨before, after, rfl, hbefore, hafter⟩, hhead, hlast⟩ := h
  cases core with
  | nil =>
    have hall : ∀ c ∈ before ++ [] ++ after, isBlank c := by
      simpa [or_imp, forall_and] using ⟨hbefore, hafter⟩
    rw [trim, List.dropWhile_eq_nil_iff.2 hall]
    rfl
  | cons c cs =>
    have hstop : ∀ d ∈ (c :: cs ++ after).head?, isBlank d = false := hhead
    have hfront : (before ++ (c :: cs) ++ after).dropWhile isBlank = c :: cs ++ after := by
      rw [List.append_assoc]
      exact (span_run hbefore hstop).2
    have hback : (after.reverse ++ (c :: cs).reverse).dropWhile isBlank = (c :: cs).reverse := by
      refine (span_run (fun d hd => hafter d (List.mem_reverse.1 hd)) ?_).2
      rwa [List.head?_reverse]
    rw [trim, hfront, List.reverse_append, hback, List.reverse_reverse]

theorem trim_eq_iff {text core : List Char} : trim text = core ↔ Trims text core :=
  ⟨fun h => h ▸ trims_trim text, Trims.trim_eq⟩

end Text

/-! ### Modes -/

namespace Mode

/-- The names of a mode in a setting text, in small letters. -/
def names : Mode → List String
  | .failFast => ["fail-fast", "fail_fast", "failfast"]
  | .batch => ["batch"]

/-- Without the blanks around it the text is a name of the mode, the case of ASCII letters apart. -/
def NamedBy (mode : Mode) (text : List Char) : Prop :=
  ∃ core, Text.Trims text core ∧ ∃ name ∈ mode.names, Text.lower core = name.toList

theorem ofText?_eq_some_iff {text : List Char} {mode : Mode} :
    ofText? text = some mode ↔ mode.NamedBy text := by
  have hspelled : ∀ name : String, String.ofList ((Text.trim text).map Char.toLower) = name ↔
      Text.lower (Text.trim text) = name.toList := by
    intro name
    rw [← String.toList_inj, String.toList_ofList]
    rfl
  have hnamed : mode.NamedBy text ↔
      ∃ name ∈ mode.names, String.ofList ((Text.trim text).map Char.toLower) = name := by
    simp only [NamedBy, ← Text.trim_eq_iff, exists_eq_left', hspelled]
  rw [hnamed, ofText?]
  clear hspelled hnamed
  cases mode <;> split <;> simp_all [names]

end Mode

/-! ### Numbers -/

namespace FaultLimit

/-- One or more digits of the number, behind a plus sign or without one. -/
def Says (text : List Char) (n : Nat) : Prop :=
  ∃ sign digits, text = sign ++ digits ∧ (sign = [] ∨ sign = ['+']) ∧ digits ≠ [] ∧
    (∀ c ∈ digits, c.isDigit) ∧ Decimal.natOfDigits digits = n

/-- What a run of characters gives as a number of 64 bits: the number of its digits, or the fault that
comes first, a character that is no digit or a digit that makes the number too large. -/
inductive Gives : List Char → Except LimitFault Nat → Prop where
  | number {digits : List Char} (hdigits : ∀ c ∈ digits, c.isDigit)
      (hfits : Decimal.natOfDigits digits < 2 ^ 64) :
      Gives digits (.ok (Decimal.natOfDigits digits))
  | invalidDigit {digits : List Char} (hdigits : ∀ c ∈ digits, c.isDigit)
      (hfits : Decimal.natOfDigits digits < 2 ^ 64) {c : Char} (hc : c.isDigit = false)
      (rest : List Char) : Gives (digits ++ c :: rest) (.error .invalidDigit)
  | tooLarge {digits : List Char} (hdigits : ∀ c ∈ digits, c.isDigit)
      (hlarge : 2 ^ 64 ≤ Decimal.natOfDigits digits) (rest : List Char) :
      Gives (digits ++ rest) (.error .tooLarge)

theorem natOfDigits_le_append (ds es : List Char) :
    Decimal.natOfDigits ds ≤ Decimal.natOfDigits (ds ++ es) := by
  rw [Decimal.natOfDigits_append]
  have hpow : 0 < 10 ^ es.length := Nat.pow_pos (by decide)
  calc Decimal.natOfDigits ds
      ≤ Decimal.natOfDigits ds * 10 ^ es.length := Nat.le_mul_of_pos_right _ hpow
    _ ≤ _ := Nat.le_add_right _ _

theorem readDigits_digit {c : Char} (hc : c.isDigit) (front cs : List Char) :
    readDigits (Decimal.natOfDigits front) (c :: cs) =
      if Decimal.natOfDigits (front ++ [c]) < 2 ^ 64 then
        readDigits (Decimal.natOfDigits (front ++ [c])) cs
      else .error .tooLarge := by
  have hvalue : Decimal.natOfDigits front * 10 + (c.toNat - '0'.toNat)
      = Decimal.natOfDigits (front ++ [c]) := by
    rw [Decimal.natOfDigits_append]
    simp [Decimal.natOfDigits]
  rw [readDigits, if_pos hc, hvalue]
  rfl

/-- Reading on behind digits that fit tells what they and the rest give together. -/
theorem gives_readDigits (front : List Char) (hfront : ∀ c ∈ front, c.isDigit)
    (hfits : Decimal.natOfDigits front < 2 ^ 64) (cs : List Char) :
    Gives (front ++ cs) (readDigits (Decimal.natOfDigits front) cs) := by
  induction cs generalizing front with
  | nil =>
    rw [List.append_nil]
    exact .number hfront hfits
  | cons c cs ih =>
    by_cases hc : c.isDigit
    · have hdigits : ∀ d ∈ front ++ [c], d.isDigit := by
        simpa [or_imp, forall_and] using ⟨hfront, hc⟩
      have happend : front ++ c :: cs = front ++ [c] ++ cs := by simp
      rw [readDigits_digit hc, happend]
      split
      · rename_i hsmall
        exact ih _ hdigits hsmall
      · rename_i hlarge
        exact .tooLarge hdigits (Nat.le_of_not_lt hlarge) cs
    · rw [readDigits, if_neg hc]
      exact .invalidDigit hfront hfits (Bool.eq_false_iff.2 hc) cs

/-- Digits that fit are passed over. -/
theorem readDigits_append (front : List Char) {digits : List Char} (hdigits : ∀ c ∈ digits, c.isDigit)
    (hfits : Decimal.natOfDigits (front ++ digits) < 2 ^ 64) (rest : List Char) :
    readDigits (Decimal.natOfDigits front) (digits ++ rest)
      = readDigits (Decimal.natOfDigits (front ++ digits)) rest := by
  induction digits generalizing front with
  | nil => rw [List.append_nil, List.nil_append]
  | cons c cs ih =>
    obtain ⟨hc, hcs⟩ := List.forall_mem_cons.1 hdigits
    rw [← List.singleton_append, ← List.append_assoc] at hfits
    have hsmall := Nat.lt_of_le_of_lt (natOfDigits_le_append (front ++ [c]) cs) hfits
    rw [List.cons_append, readDigits_digit hc, if_pos hsmall, ih _ hcs hfits, List.append_assoc,
      List.singleton_append]

theorem readDigits_of_large (front : List Char) {digits : List Char}
    (hfront : Decimal.natOfDigits front < 2 ^ 64) (hdigits : ∀ c ∈ digits, c.isDigit)
    (hlarge : 2 ^ 64 ≤ Decimal.natOfDigits (front ++ digits)) (rest : List Char) :
    readDigits (Decimal.natOfDigits front) (digits ++ rest) = .error .tooLarge := by
  induction digits generalizing front with
  | nil =>
    rw [List.append_nil] at hlarge
    omega
  | cons c cs ih =>
    obtain ⟨hc, hcs⟩ := List.forall_mem_cons.1 hdigits
    rw [List.cons_append, readDigits_digit hc]
    split
    · rename_i hsmall
      exact ih _ hsmall hcs (by rwa [List.append_assoc, List.singleton_append])
    · rfl

theorem gives_iff {text : List Char} {result : Except LimitFault Nat} :
    Gives text result ↔ readDigits 0 text = result := by
  have hzero : Decimal.natOfDigits [] = 0 := rfl
  constructor
  · intro h
    rw [← hzero]
    cases h with
    | number hdigits hfits =>
      have hread := readDigits_append [] hdigits hfits []
      rwa [List.append_nil] at hread
    | invalidDigit hdigits hfits hc rest =>
      rw [readDigits_append [] hdigits hfits, readDigits, if_neg (by simp [hc])]
    | tooLarge hdigits hlarge rest =>
      exact readDigits_of_large [] (by decide) hdigits hlarge rest
  · rintro rfl
    exact gives_readDigits [] (by simp) (by decide) text

/-! ### Limits -/

/-- What is read as digits: what stands behind the plus sign that a text begins with, or the whole text
if it begins with none or is a plus sign alone. -/
inductive Unsigned : List Char → List Char → Prop where
  | plus (c : Char) (cs : List Char) : Unsigned ('+' :: c :: cs) (c :: cs)
  | plain {text : List Char} (hne : text ≠ []) (hplus : ∀ rest, text = '+' :: rest → rest = []) :
      Unsigned text text

theorem Unsigned.readNumber_eq {text body : List Char} (h : Unsigned text body) :
    readNumber text = readDigits 0 body := by
  cases h with
  | plus c cs => rfl
  | plain hne hplus =>
    unfold readNumber
    split
    · exact absurd rfl hne
    · exact absurd (hplus _ rfl) (by simp)
    · rfl

theorem exists_unsigned {text : List Char} (hne : text ≠ []) : ∃ body, Unsigned text body := by
  by_cases hplus : ∀ rest, text = '+' :: rest → rest = []
  · exact ⟨text, .plain hne hplus⟩
  · simp only [not_forall] at hplus
    obtain ⟨rest, rfl, hrest⟩ := hplus
    obtain ⟨c, cs, rfl⟩ := List.exists_cons_of_ne_nil hrest
    exact ⟨c :: cs, .plus c cs⟩

/-- The numbers that fit are said by their digits, behind a plus sign or without one. -/
theorem says_iff {text : List Char} {n : Nat} :
    Says text n ∧ n < 2 ^ 64 ↔ ∃ body, Unsigned text body ∧ Gives body (.ok n) := by
  constructor
  · rintro ⟨⟨sign, digits, rfl, hsign, hne, hdigits, rfl⟩, hfits⟩
    refine ⟨digits, ?_, .number hdigits hfits⟩
    obtain ⟨c, cs, rfl⟩ := List.exists_cons_of_ne_nil hne
    rcases hsign with rfl | rfl
    · refine .plain hne ?_
      rintro rest hplus
      obtain ⟨rfl, -⟩ := List.cons.inj hplus
      exact absurd (hdigits '+' List.mem_cons_self) (by decide)
    · exact .plus c cs
  · rintro ⟨body, hbody, hgives⟩
    cases hgives with
    | number hdigits hfits =>
      refine ⟨?_, hfits⟩
      cases hbody with
      | plus c cs => exact ⟨['+'], c :: cs, rfl, .inr rfl, List.cons_ne_nil _ _, hdigits, rfl⟩
      | plain hne => exact ⟨[], text, rfl, .inl rfl, hne, hdigits, rfl⟩

end FaultLimit

/-- What is wrong with a text that says no limit. -/
inductive LimitFault.Explains : LimitFault → List Char → Prop where
  | empty : Explains .empty []
  | digits {text body : List Char} {fault : LimitFault} (hbody : FaultLimit.Unsigned text body)
      (hfault : FaultLimit.Gives body (.error fault)) : Explains fault text
  | zero {text : List Char} (hzero : FaultLimit.Says text 0) : Explains .zero text

namespace FaultLimit

variable {text : List Char} {limit : FaultLimit} {fault : LimitFault}

theorem readNumber_eq_ok_iff {n : Nat} : readNumber text = .ok n ↔ Says text n ∧ n < 2 ^ 64 := by
  rw [says_iff]
  constructor
  · intro h
    have hne : text ≠ [] := by
      rintro rfl
      cases h
    obtain ⟨body, hbody⟩ := exists_unsigned hne
    rw [hbody.readNumber_eq] at h
    exact ⟨body, hbody, gives_iff.2 h⟩
  · rintro ⟨body, hbody, hgives⟩
    rw [hbody.readNumber_eq]
    exact gives_iff.1 hgives

theorem readNumber_eq_error_iff : readNumber text = .error fault ↔
    (text = [] ∧ fault = .empty) ∨ ∃ body, Unsigned text body ∧ Gives body (.error fault) := by
  constructor
  · intro h
    by_cases hne : text = []
    · subst hne
      cases h
      exact .inl ⟨rfl, rfl⟩
    · obtain ⟨body, hbody⟩ := exists_unsigned hne
      rw [hbody.readNumber_eq] at h
      exact .inr ⟨body, hbody, gives_iff.2 h⟩
  · rintro (⟨rfl, rfl⟩ | ⟨body, hbody, hgives⟩)
    · rfl
    · rw [hbody.readNumber_eq]
      exact gives_iff.1 hgives

theorem ofNat?_eq_some_iff {n : Nat} : ofNat? n = some limit ↔ limit.count = n := by
  obtain ⟨count, hpos⟩ := limit
  unfold ofNat?
  split
  · rw [Option.some_inj, FaultLimit.mk.injEq, eq_comm]
  · rename_i hzero
    refine ⟨nofun, ?_⟩
    rintro rfl
    exact absurd hpos hzero

theorem ofNat?_eq_none_iff {n : Nat} : ofNat? n = none ↔ n = 0 := by
  unfold ofNat?
  split
  · rename_i hpos
    exact ⟨nofun, fun hzero => absurd hzero hpos.ne'⟩
  · rename_i hzero
    exact ⟨fun _ => Nat.eq_zero_of_not_pos hzero, fun _ => rfl⟩

theorem ofText_eq_ok_iff : ofText text = .ok limit ↔
    ∃ core, Text.Trims text core ∧ Says core limit.count ∧ limit.count < 2 ^ 64 := by
  simp only [← Text.trim_eq_iff, exists_eq_left', ← readNumber_eq_ok_iff]
  unfold ofText
  split
  · rename_i hread
    rw [hread]
    exact ⟨nofun, nofun⟩
  · rename_i n hread
    rw [hread, Except.ok.injEq, eq_comm (a := n), ← ofNat?_eq_some_iff]
    cases ofNat? n <;> simp

theorem ofText_eq_error_iff :
    ofText text = .error fault ↔ ∃ core, Text.Trims text core ∧ fault.Explains core := by
  simp only [← Text.trim_eq_iff, exists_eq_left']
  unfold ofText
  generalize Text.trim text = core
  constructor
  · intro h
    split at h
    · rename_i fault' hread
      obtain rfl := Except.error.inj h
      rcases readNumber_eq_error_iff.1 hread with ⟨rfl, rfl⟩ | ⟨body, hbody, hgives⟩
      · exact .empty
      · exact .digits hbody hgives
    · rename_i n hread
      split at h
      · cases h
      · rename_i hzero
        obtain rfl := Except.error.inj h
        rw [ofNat?_eq_none_iff] at hzero
        subst hzero
        exact .zero (readNumber_eq_ok_iff.1 hread).1
  · intro h
    cases h with
    | empty => rfl
    | digits hbody hfault => rw [readNumber_eq_error_iff.2 (.inr ⟨_, hbody, hfault⟩)]
    | zero hzero =>
      rw [readNumber_eq_ok_iff.2 ⟨hzero, by decide⟩]
      rfl

end FaultLimit

end SqlScan
