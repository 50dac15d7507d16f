import SqlScan.Proofs.NumericLiterals

/-!
# Written numbers read back

A number that is not negative is written as a numeral that means it (`Literal.AsNumeral`): an integer
has the value of its digits, and a finite float is the nearest to the value of its own. A negative
number is a minus sign and the number without its sign, so it is read as that number behind an
operator. Only the least integer has no such number.
-/

namespace SqlScan

/-- For these settings the answer is tokens that say this, the end of the source among them, and no
fault. -/
def TokenizesTo (settings : Settings) (source : List Char) (contents : List (TokenKind × String)) :
    Prop :=
  ∃ tokens, (tokenize settings source).answer = .ok ⟨tokens, []⟩ ∧
    tokens.map Token.content = contents

/-! ### A sign in front of a text -/

theorem Lexeme.read_minus {text : List Char} (h : text.head? ≠ some '-') :
    read ('-' :: text) = ⟨[], ['-'], text, .token (.operator .minus)⟩ := by
  have hclear : Gap.read ('-' :: text) = .clear [] ('-' :: text) := by
    rw [Gap.read_eq_clear_nil_iff]
    refine ⟨by simp; decide, ?_, by simp⟩
    rintro ⟨rest, hrest⟩
    obtain rfl := (List.cons.inj hrest).2
    exact h rfl
  have hdelimiter : Delimiter.ofChar? '-' = none := by decide
  have hoperator : Operator.read? ('-' :: text) = some (.minus, ['-'], text) := by
    cases text with
    | nil => rfl
    | cons c cs => simp [Operator.read?, Operator.ofPair?, Operator.ofChar?]
  rw [(read_of_clear hclear).1, front, ofChar, hdelimiter, hoperator]
  rfl

theorem Numeral.Leads.head_ne_minus {n : Numeral} {text rest : List Char} (h : n.Leads text rest) :
    text.head? ≠ some '-' := by
  obtain ⟨c, cs, rfl, hdigit⟩ := h.exists_digit
  intro hminus
  rw [List.head?_cons, Option.some.injEq] at hminus
  rw [hminus] at hdigit
  cases hdigit

/-! ### Literals that are written as numerals -/

/-- The literal is written as a numeral that means it. -/
def Literal.AsNumeral (value : Literal) : Prop :=
  ∃ n : Numeral, value.written.toList = n.text ∧ n.Leads n.text [] ∧
    n.Means (.token (.literal value))

namespace Cursor

variable {c : Cursor} {value : Literal}

theorem ReadsAs.tokenizesTo {source : List Char} {contents : List (TokenKind × String)}
    (h : (ofSource source).ReadsAs contents) (settings : Settings) :
    TokenizesTo settings source contents :=
  ⟨_, answer_eq_ok_nil_iff.2 ⟨h.1, rfl⟩, h.2⟩

theorem next_of_read_fault {passed covered rest : List Char} {cause : Cause}
    (hread : Lexeme.read c.ahead = ⟨passed, covered, rest, .fault cause⟩) :
    ∃ f : Fault, c.next.1 = .fault f ∧ f.cause = cause ∧ c.next.2.ahead = rest := by
  simp only [next, hread, Lexeme.item, Item.fault.injEq]
  exact ⟨_, rfl, rfl, trivial⟩

theorem readsAs_of_read {passed covered rest : List Char} {kind : TokenKind}
    {contents : List (TokenKind × String)}
    (hread : Lexeme.read c.ahead = ⟨passed, covered, rest, .token kind⟩) (hkind : kind ≠ .endOfFile)
    (h : ∀ d : Cursor, d.ahead = rest → d.ReadsAs contents) :
    c.ReadsAs ((kind, kind.textOf covered) :: contents) := by
  obtain ⟨span, location, hitem, hrest⟩ := next_of_read hread
  exact readsAs_cons hitem rfl (by simpa [Token.isEndOfFile] using hkind) (h _ hrest)

theorem readsAs_literal (hvalue : value.AsNumeral) (hahead : c.ahead = value.written.toList) :
    c.ReadsAs [(.literal value, value.written), (.endOfFile, "")] := by
  obtain ⟨n, hwritten, hn, hmeans⟩ := hvalue
  have hread := Lexeme.read_of_leads hn .nil
  rw [hmeans.content_eq, List.nil_append, ← hwritten, ← hahead] at hread
  have htext : (TokenKind.literal value).textOf c.ahead = value.written := by
    rw [hahead]
    cases hmeans <;> exact String.ofList_toList
  rw [← htext]
  exact readsAs_of_read hread nofun fun d hd => readsAs_nil (.inl rfl) hd

theorem readsAs_minus_literal (hvalue : value.AsNumeral)
    (hahead : c.ahead = '-' :: value.written.toList) :
    c.ReadsAs [(.operator .minus, "-"), (.literal value, value.written), (.endOfFile, "")] := by
  have hfirst : value.written.toList.head? ≠ some '-' := by
    obtain ⟨n, hwritten, hn, -⟩ := hvalue
    rw [hwritten]
    exact hn.head_ne_minus
  have hread := Lexeme.read_minus hfirst
  rw [← hahead] at hread
  exact readsAs_of_read hread nofun fun d hd => readsAs_literal hvalue hd

end Cursor

namespace Literal.AsNumeral

variable {value : Literal}

theorem tokenizesTo (hvalue : value.AsNumeral) (settings : Settings) :
    TokenizesTo settings value.written.toList
      [(.literal value, value.written), (.endOfFile, "")] :=
  (Cursor.readsAs_literal hvalue rfl).tokenizesTo settings

theorem tokenizesTo_minus (hvalue : value.AsNumeral) (settings : Settings) :
    TokenizesTo settings ('-' :: value.written.toList)
      [(.operator .minus, "-"), (.literal value, value.written), (.endOfFile, "")] :=
  (Cursor.readsAs_minus_literal hvalue rfl).tokenizesTo settings

end Literal.AsNumeral

/-! ### Integers -/

/-- The numeral of a whole number, without a fraction or an exponent. -/
def Numeral.ofNat (k : Nat) : Numeral := ⟨Nat.toDigits 10 k, [], none⟩

namespace Numeral

theorem text_ofNat (k : Nat) : (ofNat k).text = Nat.toDigits 10 k := by
  simp [ofNat, text, fractionText]

theorem leads_text {n : Numeral} (hn : n.WellFormed) (hne : n.whole ≠ []) : n.Leads n.text [] where
  append := (List.append_nil _).symm
  ne_nil := hne
  wellFormed := hn
  digit := by simp
  point := by simp
  letter := by simp
  sign := by simp

theorem leads_ofNat (k : Nat) : (ofNat k).Leads (ofNat k).text [] :=
  leads_text ⟨Decimal.isDigit_of_mem_toDigits, by simp [ofNat], by simp [ofNat]⟩ Nat.toDigits_ne_nil

theorem value_ofNat (k : Nat) : (ofNat k).value = k := by
  rw [value_of_isInteger rfl, ofNat, Decimal.natOfDigits_toDigits]

end Numeral

namespace Literal

variable {i : Int64}

theorem asNumeral_integer (h : 0 ≤ i.toInt) : (integer i).AsNumeral := by
  obtain ⟨k, hk⟩ := Int.eq_ofNat_of_zero_le h
  refine ⟨.ofNat k, ?_, Numeral.leads_ofNat k, .integer rfl rfl ?_⟩
  · rw [written, hk, Decimal.toList_toString_ofNat, Numeral.text_ofNat]
  · rw [Numeral.value_ofNat, hk]
    rfl

theorem toList_written_of_neg (h : i.toInt < 0) :
    (integer i).written.toList = '-' :: (Numeral.ofNat i.toInt.natAbs).text := by
  obtain ⟨k, hk⟩ := Int.eq_negSucc_of_lt_zero h
  rw [written, hk, Decimal.toList_toString_negSucc, Numeral.text_ofNat]
  rfl

theorem toInt_neg_of_ne_minValue (h : i ≠ Int64.minValue) : (-i).toInt = -i.toInt := by
  have hlower := i.le_toInt
  have hupper := i.toInt_lt
  have hne : i.toInt ≠ -2 ^ 63 := by
    rwa [← Int64.toInt_minValue, Ne, Int64.toInt_inj]
  rw [Int64.toInt_neg, Int.bmod_def]
  omega

/-- A negative integer is written as its magnitude behind a minus sign. -/
theorem toList_written_of_ne_minValue (h : i.toInt < 0) (hne : i ≠ Int64.minValue) :
    (integer i).written.toList = '-' :: (integer (-i)).written.toList := by
  have hneg : (-i).toInt = i.toInt.natAbs := by
    rw [toInt_neg_of_ne_minValue hne]
    omega
  rw [toList_written_of_neg h, written, hneg, Decimal.toList_toString_ofNat, Numeral.text_ofNat]

end Literal

theorem Numeral.means_natAbs_minValue :
    (ofNat Int64.minValue.toInt.natAbs).Means (.fault (.malformedNumber .integerOutOfRange)) := by
  refine .integerOutOfRange rfl rfl ?_
  rw [value_ofNat, Int64.toInt_minValue]
  norm_num

/-- Without its sign the least integer is out of range. -/
theorem Cursor.block_minValue {c : Cursor}
    (hahead : c.ahead = (Literal.integer Int64.minValue).written.toList) :
    (c.block none).tokens.map Token.kind = [.operator .minus, .endOfFile] ∧
      (c.block none).faults.map Fault.cause = [.malformedNumber .integerOutOfRange] := by
  have hn := Numeral.leads_ofNat Int64.minValue.toInt.natAbs
  have hminus := Lexeme.read_minus hn.head_ne_minus
  have hfault := Lexeme.read_of_leads hn .nil
  rw [← Literal.toList_written_of_neg (by decide), ← hahead] at hminus
  rw [Numeral.means_natAbs_minValue.content_eq, List.nil_append] at hfault
  obtain ⟨span, location, hitem, hrest⟩ := next_of_read hminus
  rw [← hrest] at hfault
  obtain ⟨f, hfault_item, hcause, hend⟩ := next_of_read_fault hfault
  obtain ⟨hfaults, htokens⟩ := readsAs_nil (.inl rfl) hend
  have hkinds : (c.next.2.next.2.block none).tokens.map Token.kind = [.endOfFile] := by
    have hkinds := congrArg (List.map Prod.fst) htokens
    rwa [List.map_map] at hkinds
  rw [block_of_token hitem rfl, block_none_of_fault hfault_item, ← hcause]
  refine ⟨congrArg (_ :: ·) hkinds, ?_⟩
  exact congrArg (fun faults : List Fault => f.cause :: faults.map Fault.cause) hfaults

namespace Literal

variable {i : Int64}

theorem tokenizesTo_of_neg (h : i.toInt < 0) (hne : i ≠ Int64.minValue) (settings : Settings) :
    TokenizesTo settings (integer i).written.toList
      [(.operator .minus, "-"), (.literal (.integer (-i)), (integer (-i)).written),
        (.endOfFile, "")] := by
  have hnonneg : 0 ≤ (-i).toInt := by
    rw [toInt_neg_of_ne_minValue hne]
    omega
  rw [toList_written_of_ne_minValue h hne]
  exact (asNumeral_integer hnonneg).tokenizesTo_minus settings

theorem exists_answer_integer_iff {settings : Settings} :
    (∃ tokens, (tokenize settings (integer i).written.toList).answer = .ok ⟨tokens, []⟩) ↔
      i ≠ Int64.minValue := by
  constructor
  · rintro ⟨tokens, hanswer⟩ rfl
    have hleast := Cursor.block_minValue
      (c := .ofSource (integer Int64.minValue).written.toList) rfl
    rw [(answer_eq_ok_nil_iff.1 hanswer).1] at hleast
    cases hleast.2
  · intro hne
    rcases lt_or_ge i.toInt 0 with h | h
    · obtain ⟨tokens, hanswer, -⟩ := tokenizesTo_of_neg h hne settings
      exact ⟨tokens, hanswer⟩
    · obtain ⟨tokens, hanswer, -⟩ := (asNumeral_integer h).tokenizesTo settings
      exact ⟨tokens, hanswer⟩

end Literal

/-! ### Floats -/

namespace Binary64

variable {f : Binary64}

theorem exists_numeral_digitsIn (layout : Layout) (m : Nat) :
    ∃ n : Numeral, n.text = digitsIn layout m ∧ n.Says (shortest layout.tie m) := by
  unfold digitsIn
  dsimp only
  split
  · exact Decimal.exists_positional _
  · exact Decimal.exists_scientific _ _

theorem toList_writtenIn (layout : Layout) (hfinite : f.isFinite) :
    (f.writtenIn layout).toList
      = if f.negative then '-' :: digitsIn layout f.magnitude else digitsIn layout f.magnitude := by
  have hnumber : f.isNaN = false := by
    rw [isFinite, decide_eq_true_eq] at hfinite
    rw [isNaN, decide_eq_false_iff_not]
    omega
  simp only [writtenIn, hnumber, hfinite, Bool.false_eq_true, if_false, if_true, String.toList_ofList]

end Binary64

namespace Literal

variable {f : Binary64}

theorem asNumeral_float (hfinite : f.isFinite) (hsign : f.negative = false) :
    (float f).AsNumeral := by
  have hlt : f.magnitude < Binary64.infinity := by simpa [Binary64.isFinite] using hfinite
  obtain ⟨n, htext, hn⟩ := Binary64.exists_numeral_digitsIn .literal f.magnitude
  have hnearest := (Binary64.nearest_eq_iff hlt).1 (Binary64.nearest_shortest Layout.literal.tie hlt)
  rw [← hn.value] at hnearest
  refine ⟨n, ?_, Numeral.leads_text hn.wellFormed hn.ne_nil,
    .float hn.parts hn.digits hsign hfinite hnearest⟩
  rw [written, Binary64.written, Binary64.toList_writtenIn .literal hfinite, hsign, htext]
  rfl

/-- A negative float is written as its magnitude behind a minus sign. -/
theorem toList_written_of_negative (hfinite : f.isFinite) (hsign : f.negative) :
    (float f).written.toList = '-' :: (float { f with negative := false }).written.toList := by
  have hmagnitude : ({ f with negative := false } : Binary64).isFinite := hfinite
  rw [written, written, Binary64.written, Binary64.written, Binary64.toList_writtenIn .literal hfinite,
    Binary64.toList_writtenIn .literal hmagnitude, hsign]
  rfl

end Literal

/-- What is written of a number is read as that number alone, behind an operator if it is negative,
and each token has its part of the text. Of all numbers only the least integer is not. -/
theorem written_numbers_read_back (settings : Settings) :
    (∀ i : Int64, 0 ≤ i.toInt → TokenizesTo settings (Literal.integer i).written.toList
      [(.literal (.integer i), (Literal.integer i).written), (.endOfFile, "")]) ∧
    (∀ i : Int64, i.toInt < 0 → i ≠ Int64.minValue → (-i).toInt = -i.toInt ∧
      TokenizesTo settings (Literal.integer i).written.toList
        [(.operator .minus, "-"), (.literal (.integer (-i)), (Literal.integer (-i)).written),
          (.endOfFile, "")]) ∧
    (∀ i : Int64, (∃ tokens, (tokenize settings (Literal.integer i).written.toList).answer
      = .ok ⟨tokens, []⟩) ↔ i ≠ Int64.minValue) ∧
    (∃ stream, (tokenize .batch (Literal.integer Int64.minValue).written.toList).answer
        = .ok stream ∧
      stream.tokens.map Token.kind = [.operator .minus, .endOfFile] ∧
      stream.faults.map Fault.cause = [.malformedNumber .integerOutOfRange]) ∧
    ∀ f : Binary64, f.isFinite →
      (f.negative = false → TokenizesTo settings (Literal.float f).written.toList
        [(.literal (.float f), (Literal.float f).written), (.endOfFile, "")]) ∧
      let magnitude := { f with negative := false }
      (f.negative = true → TokenizesTo settings (Literal.float f).written.toList
        [(.operator .minus, "-"), (.literal (.float magnitude), (Literal.float magnitude).written),
          (.endOfFile, "")]) := by
  refine ⟨fun i h => (Literal.asNumeral_integer h).tokenizesTo settings,
    fun i h hne => ⟨Literal.toInt_neg_of_ne_minValue hne, Literal.tokenizesTo_of_neg h hne settings⟩,
    fun i => Literal.exists_answer_integer_iff, ?_, ?_⟩
  · have hleast := Cursor.block_minValue
      (c := .ofSource (Literal.integer Int64.minValue).written.toList) rfl
    rw [← Cursor.tokens_stream_none] at hleast
    exact ⟨_, answer_batch none _, hleast⟩
  · intro f hfinite
    refine ⟨fun hsign => (Literal.asNumeral_float hfinite hsign).tokenizesTo settings, ?_⟩
    intro magnitude hsign
    have hmagnitude : magnitude.isFinite := hfinite
    rw [Literal.toList_written_of_negative hfinite hsign]
    exact (Literal.asNumeral_float hmagnitude rfl).tokenizesTo_minus settings

/-- The integer after the least one, the least float above zero, and the first power of ten that is not
written out, which has no point. -/
theorem written_numbers_read_back_limits :
    let power : Binary64 := ⟨false, 0x4341C37937E08000, by decide⟩
    TokenizesTo .batch "-9223372036854775807".toList
      [(.operator .minus, "-"), (.literal (.integer 9223372036854775807), "9223372036854775807"),
        (.endOfFile, "")] ∧
    TokenizesTo .failFast "-5e-324".toList
      [(.operator .minus, "-"), (.literal (.float ⟨false, 1, by decide⟩), "5e-324"),
        (.endOfFile, "")] ∧
    TokenizesTo .batch "1e16".toList [(.literal (.float power), "1e16"), (.endOfFile, "")] := by
  intro power
  let least : Binary64 := ⟨true, 1, by decide⟩
  have hinteger : (Literal.integer (-9223372036854775807)).written = "-9223372036854775807" := by
    decide
  have hleast : (Literal.float least).written = "-5e-324" := by decide +kernel
  have hmagnitude : (Literal.float { least with negative := false }).written = "5e-324" := by
    decide +kernel
  have hpower : (Literal.float power).written = "1e16" := by decide +kernel
  refine ⟨?_, ?_, ?_⟩
  · rw [← hinteger]
    exact ((written_numbers_read_back .batch).2.1 _ (by decide) (by decide)).2
  · rw [← hleast, ← hmagnitude]
    exact ((written_numbers_read_back .failFast).2.2.2.2 least (by decide)).2 rfl
  · rw [← hpower]
    exact ((written_numbers_read_back .batch).2.2.2.2 power (by decide)).1 rfl

end SqlScan
