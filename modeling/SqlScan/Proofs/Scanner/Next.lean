import SqlScan.Proofs.Scanner.Parts

/-!
# What a scanner answers next

A scanner that has taken the first character of a lexeme goes over the rest of it and answers the item
that the lexeme is (`Scans`). So the next item is the item that reading the text ahead gives, wherever
the token before it began.
-/

namespace SqlScan

theorem TokenKind.textOf_of_ofWord? {word : List Char} {value : Literal}
    (h : Literal.ofWord? word = some value) (covered : List Char) :
    (literal value).textOf covered = String.ofList covered := by
  unfold Literal.ofWord? at h
  split at h <;> cases h <;> rfl

/-! ### Symbols -/

namespace Lexeme

variable {c d : Char} {cs : List Char} {o : Operator}

theorem ofChar_single (hdelimiter : Delimiter.ofChar? c = none) (hchar : Operator.ofChar? c = some o)
    (hpair : ∀ d ∈ cs.head?, Operator.ofPair? c d = none) :
    ofChar c cs = ⟨[], [c], cs, .token (.operator o)⟩ := by
  rw [ofChar, hdelimiter]
  dsimp only
  rw [read?_single hpair, hchar]
  rfl

theorem ofChar_pair (hdelimiter : Delimiter.ofChar? c = none)
    (hpair : Operator.ofPair? c d = some o) :
    ofChar c (d :: cs) = ⟨[], [c, d], cs, .token (.operator o)⟩ := by
  rw [ofChar, hdelimiter]
  simp [Operator.read?, hpair]

theorem read?_alone (hchar : Operator.ofChar? c = none)
    (hpair : ∀ d ∈ cs.head?, Operator.ofPair? c d = none) : Operator.read? (c :: cs) = none := by
  rw [read?_single hpair, hchar]
  rfl

theorem ofChar_unexpected (hdelimiter : Delimiter.ofChar? c = none)
    (hoperator : Operator.read? (c :: cs) = none) (hapostrophe : c ≠ '\'') (hquote : c ≠ '"')
    (hdigit : ¬ c.isDigit) (hstart : ¬ Word.isStart c) :
    ofChar c cs = ⟨[], [c], cs, .fault (.unexpectedCharacter c)⟩ := by
  rw [ofChar, hdelimiter]
  simp [hoperator, hapostrophe, hquote, hdigit, hstart]

end Lexeme

namespace Scanner

variable {α : Type} {s : Scanner} {c d : Char} {taken run ahead rest cs : List Char} {x : Lexeme}

/-- From the text that was taken of it a scanner goes on to the end of a lexeme and answers the
lexeme's item. -/
def Scans (s : Scanner) (taken : List Char) (x : Lexeme) (result : Option (Item × Scanner)) : Prop :=
  ∃ run, x.passed ++ x.covered = taken ++ run ∧
    result = s.checked run
      (x.item (s.start.after x.passed) ((s.start.after x.passed).after x.covered), s.moved run)

theorem Scans.bind {a : α} {f : α → Option (Item × Scanner)}
    (h : (s.moved run).Scans (taken ++ run) x (f a)) : s.Scans taken x (s.checked run a >>= f) := by
  obtain ⟨more, htext, hresult⟩ := h
  refine ⟨run ++ more, by rw [htext, List.append_assoc], ?_⟩
  rw [checked_bind _ _ hresult, moved_moved]
  rfl

/-! ### Answers -/

theorem Took.scans_token (h : s.Took taken ahead) (kind : TokenKind) :
    s.Scans taken ⟨[], taken, ahead, .token kind⟩
      (some (s.answerToken (kind.textOf taken) kind)) := by
  refine ⟨[], by simp, ?_⟩
  rw [checked_nil, moved_nil, answerToken, h.mark_eq]
  rfl

theorem Took.scans_answer (h : s.Took taken ahead) {kind : TokenKind}
    (htext : kind.textOf taken = String.ofList taken) :
    s.Scans taken ⟨[], taken, ahead, .token kind⟩ (s.answer kind) := by
  have hanswer : s.answer kind = some (s.answerToken (kind.textOf taken) kind) := by
    rw [answer, h.taken_eq, htext]
    rfl
  rw [hanswer]
  exact h.scans_token kind

theorem Took.scans_fault (h : s.Took taken ahead) (cause : Cause) :
    s.Scans taken ⟨[], taken, ahead, .fault cause⟩
      (some (.fault ⟨cause, SqlScan.snippet taken, s.start.spanTo s.mark, s.start.location⟩, s)) := by
  refine ⟨[], by simp, ?_⟩
  rw [checked_nil, moved_nil, h.mark_eq]
  rfl

theorem Took.scans_unexpected (h : s.Took [c] ahead) :
    s.Scans [c] ⟨[], [c], ahead, .fault (.unexpectedCharacter c)⟩ (s.unexpected c) := by
  have hshort : String.ofList [c] = SqlScan.snippet [c] := rfl
  rw [unexpected, h.taken_eq, Option.bind_eq_bind, Option.bind_some, hshort]
  exact h.scans_fault (.unexpectedCharacter c)

theorem Took.scans_malformed (h : s.Took taken ahead) (reason : NumericFault) :
    s.Scans taken ⟨[], taken, ahead, .fault (.malformedNumber reason)⟩ (s.malformed reason) := by
  have hwhole : s.Took ([] ++ taken) ahead := h
  have hfault := hwhole.faultFrom (.malformedNumber reason)
  rw [Mark.after_nil] at hfault
  rw [malformed, hfault]
  exact h.scans_fault (.malformedNumber reason)

/-! ### Names and words -/

theorem Took.scans_name (first : Segment) (h : s.Took first.text ahead) :
    s.Scans first.text (Lexeme.ofName first ahead) (s.scanName [first.name]) := by
  rw [h.scanName (by simp), Lexeme.ofName, h.mark_eq]
  cases Name.continuation ahead with
  | complete segments rest =>
    refine ⟨Name.continued segments, rfl, ?_⟩
    show s.checked _ (Item.token ⟨_, _, _, _⟩, _)
      = s.checked _ (Item.token ⟨TokenKind.textOf (first.text ++ Name.continued segments) _, _, _, _⟩, _)
    rw [TokenKind.textOf_ofSegments, Mark.after_nil, Mark.after_append]
    rfl
  | unclosed segments quoted =>
    refine ⟨Name.continued segments ++ '.' :: quoted, by simp, ?_⟩
    simp [Name.Continuation.item, Name.Continuation.passed, Lexeme.item, Mark.after_append]

theorem Took.scans_word (h : s.Took [c] cs) :
    s.Scans [c] (Lexeme.ofWord (c :: cs.takeWhile Word.isPart) (cs.dropWhile Word.isPart))
      s.scanWord := by
  rw [scanWord, h.eatWhile]
  apply Scans.bind
  have hword := h.moved_of_eq (List.takeWhile_append_dropWhile (p := Word.isPart))
  rw [hword.taken_eq, Option.bind_eq_bind, Option.bind_some, List.singleton_append]
  rw [List.singleton_append] at hword
  unfold Lexeme.ofWord
  cases hliteral : Literal.ofWord? (c :: cs.takeWhile Word.isPart) with
  | some value =>
    dsimp only
    rw [← TokenKind.textOf_of_ofWord? hliteral]
    exact hword.scans_token _
  | none =>
    dsimp only
    rw [Keyword.lookup?_eq_ofWord?]
    cases Keyword.ofWord? (c :: cs.takeWhile Word.isPart) with
    | some keyword => exact hword.scans_token (.keyword keyword)
    | none => exact hword.scans_name (.bare _)

/-- A quote that nothing closes is a fault from the quote to the end of the source. -/
theorem Took.scans_unclosed {f : Except Fault (List Char) × Scanner → Option (Item × Scanner)}
    (h : s.Took [c] ahead) (hread : Quoted.read? c ahead = none)
    (hf : ∀ fault t, f (.error fault, t) = some (.fault fault, t)) :
    s.Scans [c] ⟨[], c :: ahead, [], .fault .unterminatedString⟩
      (s.closeQuote c s.start [] >>= f) := by
  have hwhole : s.Took ([] ++ [c]) ahead := h
  have hquote := hwhole.closeQuote_of_unclosed hread
  rw [Mark.after_nil] at hquote
  rw [hquote]
  apply Scans.bind
  rw [hf]
  exact (h.moved_of_eq (List.append_nil ahead)).scans_fault .unterminatedString

theorem Took.scans_quotedName (h : s.Took ['"'] ahead) :
    s.Scans ['"'] (Lexeme.ofQuotedName ahead) s.scanQuotedName := by
  unfold Lexeme.ofQuotedName
  rw [scanQuotedName]
  split
  · rename_i value rest hread
    rw [h.closeQuote_of_read? hread]
    apply Scans.bind
    have hname := h.moved_of_eq (List.cons.inj (Quoted.text_append_of_read? hread)).2
    exact hname.scans_name (.quoted value)
  · rename_i hread
    exact h.scans_unclosed hread fun _ _ => rfl

theorem Took.scans_string (h : s.Took ['\''] ahead) :
    s.Scans ['\''] (Lexeme.ofString ahead) s.scanString := by
  unfold Lexeme.ofString
  rw [scanString]
  split
  · rename_i value rest hread
    rw [h.closeQuote_of_read? hread]
    apply Scans.bind
    have hstring := h.moved_of_eq (List.cons.inj (Quoted.text_append_of_read? hread)).2
    exact hstring.scans_token (.literal (.string (String.ofList value)))
  · rename_i hread
    exact h.scans_unclosed hread fun _ _ => rfl

/-! ### Numerals -/

/-- The lexeme that a numeral is. -/
def numeralLexeme (n : Numeral) (rest : List Char) : Lexeme :=
  match n.literal with
  | .ok value => ⟨[], n.text, rest, .token (.literal value)⟩
  | .error reason => ⟨[], n.text, rest, .fault (.malformedNumber reason)⟩

/-- A numeral is evaluated from its text, which says as much as its parts. -/
theorem Took.scans_answerNumeral {n : Numeral} (h : s.Took n.text ahead) (hn : n.WellFormed)
    (hdigits : n.lacksDigits = false) :
    s.Scans n.text (numeralLexeme n ahead) (s.answerNumeral (!n.isInteger)) := by
  have hend : n.EndsBefore [] := ⟨by simp, fun _ => rfl, fun _ => rfl, fun _ _ _ _ => by simp⟩
  have hread := Numeral.read_text_append hn hend
  rw [List.append_nil] at hread
  rw [numeralLexeme, Numeral.literal, hdigits, answerNumeral, h.taken_eq, Option.bind_eq_bind,
    Option.bind_some]
  dsimp only
  by_cases hinteger : n.isInteger
  · have hwhole : n.text = n.whole := by
      rw [Numeral.isInteger, Bool.and_eq_true, List.isEmpty_iff, Option.isNone_iff_eq_none] at hinteger
      simp [Numeral.text, Numeral.fractionText, hinteger.1, hinteger.2]
    simp only [hinteger, Bool.not_true, if_true, if_false, Bool.false_eq_true]
    rw [← hwhole]
    by_cases hbound : Decimal.natOfDigits n.text < Numeral.integerBound
    · rw [if_pos hbound, if_pos hbound]
      exact h.scans_token (.literal (.integer _))
    · rw [if_neg hbound, if_neg hbound]
      exact h.scans_malformed .integerOutOfRange
  · simp only [hinteger, Bool.not_false, if_true, if_false, Bool.false_eq_true, hread]
    cases Binary64.ofDecimal? n.decimal with
    | some value => exact h.scans_token (.literal (.float value))
    | none => exact h.scans_malformed .floatOutOfRange

theorem Took.scans_numeral (h : s.Took [c] cs) (hdigit : c.isDigit) :
    s.Scans [c] (Lexeme.ofNumeral (c :: cs)) s.scanNumeral := by
  have hwell := Numeral.wellFormed_read (c :: cs)
  have hlexeme : Lexeme.ofNumeral (c :: cs)
      = numeralLexeme (Numeral.read (c :: cs)).1 (Numeral.read (c :: cs)).2 := rfl
  have hfraction := Numeral.fractionText_append (cs.dropWhile Char.isDigit)
  have hwhole := h.moved_of_eq (List.takeWhile_append_dropWhile (p := Char.isDigit))
  rw [hlexeme, scanNumeral, h.eatWhile]
  apply Scans.bind
  rw [hwhole.scanFraction]
  apply Scans.bind
  have hpoint := hwhole.moved_of_eq hfraction
  dsimp only
  rw [hpoint.scanExponent]
  apply Scans.bind
  rw [Numeral.read, List.takeWhile_cons_of_pos hdigit, List.dropWhile_cons_of_pos hdigit] at hwell ⊢
  cases hread : Exponent.read? (Numeral.fraction? (cs.dropWhile Char.isDigit)).2 with
  | none =>
    simp only [hread] at hwell ⊢
    have hinteger : Numeral.isInteger ⟨c :: cs.takeWhile Char.isDigit, _, none⟩
        = (Numeral.fraction? (cs.dropWhile Char.isDigit)).1.isEmpty := Bool.and_true _
    have hanswer := Took.scans_answerNumeral (h := hpoint.moved_of_eq (List.nil_append _)) hwell rfl
    rw [hinteger] at hanswer
    exact hanswer
  | some found =>
    obtain ⟨e, rest⟩ := found
    simp only [hread] at hwell ⊢
    have htaken := hpoint.moved_of_eq (Exponent.text_append_of_read? hread)
    simp only [Option.map_some, Option.getD_some]
    cases hdigits : e.digits.isEmpty with
    | true =>
      have hfault : ∀ whole fraction, numeralLexeme ⟨whole, fraction, some e⟩ rest
          = ⟨[], Numeral.text ⟨whole, fraction, some e⟩, rest,
            .fault (.malformedNumber .missingExponentDigits)⟩ := by
        intro whole fraction
        simp [numeralLexeme, Numeral.literal, Numeral.lacksDigits, hdigits]
      rw [hfault]
      exact htaken.scans_malformed .missingExponentDigits
    | false =>
      have hanswer := Took.scans_answerNumeral (h := htaken) hwell hdigits
      rw [Numeral.isInteger, Option.isNone_some, Bool.and_false] at hanswer
      exact hanswer

/-! ### First characters -/

variable {o : Operator}

theorem Took.scans_delimiter (h : s.Took [c] ahead) {delimiter : Delimiter}
    (hdelimiter : Delimiter.ofChar? c = some delimiter) :
    s.Scans [c] (Lexeme.ofChar c ahead)
      (some (s.answerToken (String.singleton delimiter.char) (.delimiter delimiter))) := by
  rw [Lexeme.ofChar, hdelimiter]
  exact h.scans_token (.delimiter delimiter)

theorem Took.scans_single (h : s.Took [c] ahead) (hdelimiter : Delimiter.ofChar? c = none)
    (hchar : Operator.ofChar? c = some o) (hpair : ∀ d ∈ ahead.head?, Operator.ofPair? c d = none) :
    s.Scans [c] (Lexeme.ofChar c ahead) (s.answer (.operator o)) := by
  rw [Lexeme.ofChar_single hdelimiter hchar hpair]
  exact h.scans_answer rfl

/-- The second character of an operator is taken if it is there. -/
theorem Took.scans_pair {f : Scanner → Option (Item × Scanner)} (h : s.Took [c] ahead)
    (hdelimiter : Delimiter.ofChar? c = none) (hpair : Operator.ofPair? c d = some o)
    (hother : (∀ e ∈ ahead.head?, e ≠ d) → s.Scans [c] (Lexeme.ofChar c ahead) (f s)) :
    s.Scans [c] (Lexeme.ofChar c ahead) (s.answerPair d o f) := by
  rw [answerPair]
  by_cases hhead : ahead.head? = some d
  · obtain ⟨rest, rfl⟩ := List.head?_eq_some_iff.1 hhead
    rw [h.eat_cons, Lexeme.ofChar_pair hdelimiter hpair]
    apply Scans.bind
    exact h.moved_cons.scans_answer rfl
  · rw [h.eat_of_ne hhead]
    exact hother fun e he hed => hhead (hed ▸ he)

/-- A character that is an operator only together with a second one is unexpected alone. -/
theorem Took.scans_unpaired (h : s.Took [c] ahead) (hc : c = '!' ∨ c = '|')
    (hpair : ∀ d ∈ ahead.head?, Operator.ofPair? c d = none) :
    s.Scans [c] (Lexeme.ofChar c ahead) (s.unexpected c) := by
  have hchar : Operator.ofChar? c = none := by rcases hc with rfl | rfl <;> rfl
  have hoperator := Lexeme.read?_alone hchar hpair
  have hlexeme : Lexeme.ofChar c ahead = ⟨[], [c], ahead, .fault (.unexpectedCharacter c)⟩ := by
    rcases hc with rfl | rfl
    all_goals
      apply Lexeme.ofChar_unexpected rfl hoperator <;> decide
  rw [hlexeme]
  exact h.scans_unexpected

/-- What is no symbol begins a numeral or a word, or it is unexpected. -/
theorem Took.scans_other (h : s.Took [c] ahead) (hsymbol : c ∉ Lexeme.symbols) :
    s.Scans [c] (Lexeme.ofChar c ahead)
      (if c.isDigit then s.scanNumeral else if Word.isStart c then s.scanWord
        else s.unexpected c) := by
  by_cases hdigit : c.isDigit
  · rw [if_pos hdigit, Lexeme.ofChar_digit hdigit]
    exact h.scans_numeral hdigit
  rw [if_neg hdigit]
  by_cases hstart : Word.isStart c
  · rw [if_pos hstart, Lexeme.ofChar_start hstart]
    exact h.scans_word
  have hapostrophe : c ≠ '\'' := fun hc => hsymbol (hc ▸ by decide)
  have hquote : c ≠ '"' := fun hc => hsymbol (hc ▸ by decide)
  rw [if_neg hstart, Lexeme.ofChar_unexpected (Lexeme.ofChar?_of_not_symbol hsymbol)
    (Lexeme.read?_of_not_symbol hsymbol ahead) hapostrophe hquote hdigit hstart]
  exact h.scans_unexpected

theorem Took.scanFrom (h : s.Took [c] ahead) :
    s.Scans [c] (Lexeme.ofChar c ahead) (s.scanFrom c) := by
  unfold Scanner.scanFrom
  split
  · exact h.scans_delimiter rfl
  · exact h.scans_delimiter rfl
  · exact h.scans_delimiter rfl
  · exact h.scans_delimiter rfl
  · exact h.scans_delimiter rfl
  · exact h.scans_single rfl rfl fun _ _ => rfl
  · exact h.scans_single rfl rfl fun _ _ => rfl
  · exact h.scans_single rfl rfl fun _ _ => rfl
  · exact h.scans_single rfl rfl fun _ _ => rfl
  · exact h.scans_single rfl rfl fun _ _ => rfl
  · exact h.scans_single rfl rfl fun _ _ => rfl
  · refine h.scans_pair rfl rfl fun hequal => h.scans_pair rfl rfl fun hgreater => ?_
    apply h.scans_single rfl rfl
    intro d hd
    simp [Operator.ofPair?, hequal d hd, hgreater d hd]
  · refine h.scans_pair rfl rfl fun hequal => ?_
    apply h.scans_single rfl rfl
    intro d hd
    simp [Operator.ofPair?, hequal d hd]
  · refine h.scans_pair rfl rfl fun hequal => ?_
    apply h.scans_unpaired (.inl rfl)
    intro d hd
    simp [Operator.ofPair?, hequal d hd]
  · refine h.scans_pair rfl rfl fun hbar => ?_
    apply h.scans_unpaired (.inr rfl)
    intro d hd
    simp [Operator.ofPair?, hbar d hd]
  · rw [Lexeme.ofChar_apostrophe]
    exact h.scans_string
  · rw [Lexeme.ofChar_quote]
    exact h.scans_quotedName
  · apply h.scans_other
    simp_all [Lexeme.symbols]

/-! ### The next item -/

theorem Took.front (h : s.Took [] ahead) : s.Scans [] (Lexeme.front ahead) s.front := by
  rw [Scanner.front]
  cases ahead with
  | nil =>
    rw [h.advance_nil]
    exact h.scans_token .endOfFile
  | cons c cs =>
    rw [h.advance_cons]
    apply Scans.bind
    exact h.moved_cons.scanFrom

/-- Where a scanner is, with the text ahead of it. -/
def cursor (s : Scanner) (ahead : List Char) : Cursor := ⟨s.source, s.mark, ahead⟩

/-- A scanner answers what reading the text ahead gives and goes where reading leads, if it can count
so far. -/
theorem Took.next (h : s.Took taken ahead) :
    ∃ run start got, ahead = run ++ (s.cursor ahead).next.2.ahead ∧
      s.next = s.checked run ((s.cursor ahead).next.1, { s.moved run with start }) ∧
      (s.cursor ahead).next.2.mark = s.mark.after run ∧
      Took { s.moved run with start } got (s.cursor ahead).next.2.ahead := by
  have htext := Gap.text_read ahead
  rw [Scanner.next, h.skipGap]
  cases hgap : Gap.read ahead with
  | unclosed gap comment =>
    have hread : Lexeme.read ahead = ⟨gap, comment, [], .fault .unterminatedComment⟩ := by
      simp [Lexeme.read, hgap]
    rw [hgap] at htext
    have htext : gap ++ comment ++ [] = ahead := by rw [List.append_nil]; exact htext
    refine ⟨gap ++ comment, s.start, taken ++ (gap ++ comment), ?_, ?_, ?_, ?_⟩
    · simp only [cursor, Cursor.next, hread, htext]
    · refine checked_bind_some ?_
      simp only [cursor, Cursor.next, hread]
      rfl
    · simp only [cursor, Cursor.next, hread, Mark.after_append]
    · simp only [cursor, Cursor.next, hread]
      exact h.moved_of_eq htext
  | clear gap rest =>
    obtain ⟨hread, hsplit⟩ := Lexeme.read_of_clear hgap
    have hstart := (h.moved_of_eq hsplit).restart
    obtain ⟨run, hrun, hfront⟩ := hstart.front
    rw [List.nil_append] at hrun
    have hrest := Lexeme.source_front rest
    rw [Lexeme.source, hrun] at hrest
    have hstate : { s.moved (gap ++ run) with start := s.mark.after gap }
        = { s.moved gap with start := (s.moved gap).mark }.moved run := by
      simp only [mark_moved, Mark.after_append]
      rfl
    refine ⟨gap ++ run, s.mark.after gap, run, ?_, ?_, ?_, ?_⟩
    · simp only [cursor, Cursor.next, hread, Lexeme.behind, List.append_assoc, hrest, hsplit]
    · refine checked_bind _ _ (hfront.trans ?_)
      rw [hstate]
      simp only [cursor, Cursor.next, hread, Lexeme.behind, Mark.after_append]
      rfl
    · simp only [cursor, Cursor.next, hread, Lexeme.behind, ← Mark.after_append, ← hrun,
        List.append_assoc]
    · rw [hstate]
      simp only [cursor, Cursor.next, hread]
      exact hstart.moved_of_eq hrest

end Scanner

end SqlScan
