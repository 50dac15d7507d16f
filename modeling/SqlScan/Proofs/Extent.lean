import SqlScan.Lexeme
import SqlScan.Proofs.Lookahead
import SqlScan.Proofs.Trivia

/-!
# A lexeme is decided by the text it covers

Every reader looks one or two characters past its token, a name even over a whole word behind a dot.
So what a lexeme covers gives the same lexeme again in front of any text that stands for the one where
it was first read: the text can be cut off behind it or go on in another way. Only a lexeme that the
end of the source made what it is, is decided by that end: the end itself, and what never closes.
-/

namespace SqlScan

/-- A token or a fault that the end of the source has no part in. -/
def Content.Closed : Content → Prop
  | .token .endOfFile | .fault .unterminatedString | .fault .unterminatedComment => False
  | _ => True

namespace Lexeme

open Text (StandsFor)

variable {rest : List Char} {kind : TokenKind}

def before (rest : List Char) (x : Lexeme) : Lexeme := { x with rest }

/-! ### Names and words -/

theorem ofName_before {first : Segment} {text : List Char} (hfirst : first.EndsBefore text)
    (hclosed : (ofName first text).content.Closed) (hrest : StandsFor (ofName first text).rest rest) :
    ∃ more, (ofName first text).covered = first.text ++ more ∧
      first.EndsBefore (more ++ rest) ∧
      ofName first (more ++ rest) = (ofName first text).before rest := by
  have hwell := Name.wellFormed_continuation text
  have htext := Name.text_continuation text
  cases hk : Name.continuation text with
  | unclosed segments quoted => simp [ofName, hk, Content.Closed] at hclosed
  | complete segments behind =>
    rw [hk] at hwell htext
    have hstands : StandsFor behind rest := by simpa [ofName, hk] using hrest
    obtain ⟨hlast, hbehind⟩ := Name.rest_of_complete hk
    have hread := Name.continuation_continued hwell
      fun s hs => (hlast s hs).of_standsFor hstands
    rw [Name.continuation_of_standsFor hbehind hstands,
      Name.Continuation.foldr_cons_complete] at hread
    refine ⟨Name.continued segments, by simp [ofName, hk], ?_, ?_⟩
    · cases segments with
      | nil =>
        have hbehind_eq : behind = text := by
          simpa [Name.Continuation.text, Name.continued] using htext
        subst hbehind_eq
        exact hfirst.of_standsFor hstands
      | cons s more => exact Segment.endsBefore_dot _ first
    · simp only [Name.Continuation.segments] at hread
      simp [ofName, hk, hread, before]

theorem ofWord_before {word text : List Char} (hstop : ∀ c ∈ text.head?, Word.isPart c = false)
    (hclosed : (ofWord word text).content.Closed) (hrest : StandsFor (ofWord word text).rest rest) :
    ∃ more, (ofWord word text).covered = word ++ more ∧
      (∀ c ∈ (more ++ rest).head?, Word.isPart c = false) ∧
      ofWord word (more ++ rest) = (ofWord word text).before rest := by
  have hnopart : StandsFor text rest → ∀ c ∈ ([] ++ rest).head?, Word.isPart c = false :=
    fun h => h.head_of (fun _ hc => Text.isPart_of_isBlank hc) hstop
  cases hliteral : Literal.ofWord? word with
  | some value =>
    have hstands : StandsFor text rest := by simpa [ofWord, hliteral] using hrest
    refine ⟨[], ?_, hnopart hstands, ?_⟩ <;> simp [ofWord, hliteral, before]
  | none =>
    cases hkeyword : Keyword.ofWord? word with
    | some keyword =>
      have hstands : StandsFor text rest := by simpa [ofWord, hliteral, hkeyword] using hrest
      refine ⟨[], ?_, hnopart hstands, ?_⟩ <;> simp [ofWord, hliteral, hkeyword, before]
    | none =>
      have hname : ∀ text, ofWord word text = ofName (.bare word) text := by
        intro text
        simp [ofWord, hliteral, hkeyword]
      rw [hname] at hclosed hrest
      have hfirst : (Segment.bare word).EndsBefore text := hstop
      obtain ⟨more, hcovered, hend, hsame⟩ := ofName_before hfirst hclosed hrest
      exact ⟨more, by rw [hname]; exact hcovered, hend, by rw [hname, hname]; exact hsame⟩

/-! ### Quoted texts and numerals -/

theorem ofString_before {body : List Char} (hclosed : (ofString body).content.Closed)
    (hrest : StandsFor (ofString body).rest rest) :
    ∃ more, (ofString body).covered = '\'' :: more ∧
      ofString (more ++ rest) = (ofString body).before rest := by
  cases hread : Quoted.read? '\'' body with
  | none => simp [ofString, hread, Content.Closed] at hclosed
  | some found =>
    obtain ⟨value, behind⟩ := found
    have hstands : StandsFor behind rest := by simpa [ofString, hread] using hrest
    have hquote := hstands.head_ne (c := '\'') (by decide) (Quoted.head?_of_read? hread)
    have hagain := Quoted.read?_encode value hquote
    refine ⟨Quoted.encode '\'' value ++ ['\''], by simp [ofString, hread, Quoted.text], ?_⟩
    simp [ofString, hread, hagain, before]

theorem ofQuotedName_before {body : List Char} (hclosed : (ofQuotedName body).content.Closed)
    (hrest : StandsFor (ofQuotedName body).rest rest) :
    ∃ more, (ofQuotedName body).covered = '"' :: more ∧
      ofQuotedName (more ++ rest) = (ofQuotedName body).before rest := by
  cases hread : Quoted.read? '"' body with
  | none => simp [ofQuotedName, hread, Content.Closed] at hclosed
  | some found =>
    obtain ⟨value, behind⟩ := found
    have hname : ofQuotedName body = ofName (.quoted value) behind := by
      simp [ofQuotedName, hread]
    rw [hname] at hclosed hrest ⊢
    have hfirst : (Segment.quoted value).EndsBefore behind := Quoted.head?_of_read? hread
    obtain ⟨more, hcovered, hend, hsame⟩ := ofName_before hfirst hclosed hrest
    have hagain := Quoted.read?_encode value hend
    refine ⟨Quoted.encode '"' value ++ '"' :: more, ?_, ?_⟩
    · simp [hcovered, Segment.text, Quoted.text]
    · simp [ofQuotedName, hagain, hsame]

theorem covered_ofNumeral (text : List Char) :
    (ofNumeral text).covered = (Numeral.read text).1.text := by
  unfold ofNumeral
  split
  rename_i h
  rw [h]
  split <;> rfl

theorem rest_ofNumeral (text : List Char) : (ofNumeral text).rest = (Numeral.read text).2 := by
  unfold ofNumeral
  split
  rename_i h
  rw [h]
  split <;> rfl

theorem ofNumeral_before {text : List Char} (hrest : StandsFor (ofNumeral text).rest rest) :
    ofNumeral ((ofNumeral text).covered ++ rest) = (ofNumeral text).before rest := by
  have hwell := Numeral.wellFormed_read text
  rw [rest_ofNumeral] at hrest
  have hagain := Numeral.read_text_append hwell ((Numeral.endsBefore_read text).of_standsFor hrest)
  rw [covered_ofNumeral]
  cases hread : Numeral.read text with
  | mk n behind =>
    rw [hread] at hagain
    cases hvalue : n.literal <;> simp [ofNumeral, hread, hvalue, hagain, before]

/-! ### Operators -/

theorem ofPair?_of_isBlank (c : Char) {d : Char} (h : Text.isBlank d) :
    Operator.ofPair? c d = none := by
  unfold Operator.ofPair?
  split <;> first | rfl | exact absurd h (by decide)

theorem read?_single {c : Char} (hpair : ∀ d ∈ rest.head?, Operator.ofPair? c d = none) :
    Operator.read? (c :: rest) = (Operator.ofChar? c).map fun o => (o, [c], rest) := by
  cases rest with
  | nil => rfl
  | cons d ds => simp [Operator.read?, hpair d rfl]

theorem read?_before {text spelled behind : List Char} {o : Operator}
    (h : Operator.read? text = some (o, spelled, behind)) (hrest : StandsFor behind rest) :
    Operator.read? (spelled ++ rest) = some (o, spelled, rest) := by
  have hsingle : ∀ {c : Char}, Operator.ofChar? c = some o →
      (∀ d ∈ behind.head?, Operator.ofPair? c d = none) →
      Operator.read? ([c] ++ rest) = some (o, [c], rest) := by
    intro c hchar hpair
    rw [List.singleton_append,
      read?_single (hrest.head_of (fun _ hd => ofPair?_of_isBlank c hd) hpair), hchar]
    rfl
  unfold Operator.read? at h
  split at h
  · split at h
    · rename_i hpair
      simp only [Option.some.injEq, Prod.mk.injEq] at h
      obtain ⟨rfl, rfl, rfl⟩ := h
      simp [Operator.read?, hpair]
    · rename_i hpair
      obtain ⟨found, hchar, heq⟩ := Option.map_eq_some_iff.1 h
      simp only [Prod.mk.injEq] at heq
      obtain ⟨rfl, rfl, rfl⟩ := heq
      exact hsingle hchar (by simpa using hpair)
  · obtain ⟨found, hchar, heq⟩ := Option.map_eq_some_iff.1 h
    simp only [Prod.mk.injEq] at heq
    obtain ⟨rfl, rfl, rfl⟩ := heq
    exact hsingle hchar (by simp)
  · simp at h

theorem read?_eq_none_before {c : Char} {behind : List Char}
    (h : Operator.read? (c :: behind) = none) (hrest : StandsFor behind rest) :
    Operator.read? (c :: rest) = none := by
  have hparts : Operator.ofChar? c = none ∧ ∀ d ∈ behind.head?, Operator.ofPair? c d = none := by
    cases behind with
    | nil => simpa [Operator.read?] using h
    | cons d ds =>
      cases hpair : Operator.ofPair? c d <;> simp_all [Operator.read?]
  rw [read?_single (hrest.head_of (fun _ hd => ofPair?_of_isBlank c hd) hparts.2), hparts.1]
  rfl

/-! ### First characters -/

/-- The characters that delimiters, operators and quoted texts begin with. -/
def symbols : List Char :=
  ['(', ')', ',', ';', '.', '=', '<', '>', '+', '-', '*', '/', '%', '!', '|', '\'', '"']

theorem not_symbol_of_isDigit {c : Char} (h : c.isDigit) : c ∉ symbols := by
  intro hc
  have hnone : symbols.all (fun d => !d.isDigit) := by decide
  have hdigit := List.all_eq_true.1 hnone c hc
  simp [h] at hdigit

theorem not_symbol_of_isStart {c : Char} (h : Word.isStart c) : c ∉ symbols := by
  intro hc
  have hnone : symbols.all (fun d => !Word.isStart d) := by decide
  have hstart := List.all_eq_true.1 hnone c hc
  simp [h] at hstart

theorem ofChar?_of_not_symbol {c : Char} (h : c ∉ symbols) : Delimiter.ofChar? c = none := by
  rw [Delimiter.ofChar?, List.find?_eq_none]
  intro d _ hd
  have hc : d.char = c := by simpa using hd
  apply h
  rw [← hc]
  cases d <;> decide

theorem read?_of_not_symbol {c : Char} (h : c ∉ symbols) (cs : List Char) :
    Operator.read? (c :: cs) = none := by
  have hsingle : Operator.ofChar? c = none := by
    unfold Operator.ofChar?
    split <;> first | rfl | exact absurd (by decide) h
  have hpair : ∀ d, Operator.ofPair? c d = none := by
    intro d
    unfold Operator.ofPair?
    split <;> first | rfl | exact absurd (by decide) h
  cases cs with
  | nil => simp [Operator.read?, hsingle]
  | cons d ds => simp [Operator.read?, hpair, hsingle]

theorem ofChar_apostrophe (cs : List Char) : ofChar '\'' cs = ofString cs := by
  have hoperator : Operator.read? ('\'' :: cs) = none := by cases cs <;> rfl
  have hdelimiter : Delimiter.ofChar? '\'' = none := by decide
  simp [ofChar, hdelimiter, hoperator]

theorem ofChar_quote (cs : List Char) : ofChar '"' cs = ofQuotedName cs := by
  have hoperator : Operator.read? ('"' :: cs) = none := by cases cs <;> rfl
  have hdelimiter : Delimiter.ofChar? '"' = none := by decide
  simp [ofChar, hdelimiter, hoperator]

theorem ofChar_digit {c : Char} (h : c.isDigit) (cs : List Char) :
    ofChar c cs = ofNumeral (c :: cs) := by
  have hsymbol := not_symbol_of_isDigit h
  have hapostrophe : c ≠ '\'' := fun hc => hsymbol (hc ▸ by decide)
  have hquote : c ≠ '"' := fun hc => hsymbol (hc ▸ by decide)
  simp [ofChar, ofChar?_of_not_symbol hsymbol, read?_of_not_symbol hsymbol, hapostrophe, hquote, h]

theorem ofChar_start {c : Char} (h : Word.isStart c) (cs : List Char) :
    ofChar c cs = ofWord (c :: cs.takeWhile Word.isPart) (cs.dropWhile Word.isPart) := by
  have hsymbol := not_symbol_of_isStart h
  have hapostrophe : c ≠ '\'' := fun hc => hsymbol (hc ▸ by decide)
  have hquote : c ≠ '"' := fun hc => hsymbol (hc ▸ by decide)
  have hdigit : c.isDigit = false := by
    rw [Bool.eq_false_iff]
    intro hc
    rw [Text.isStart_of_isDigit hc] at h
    simp at h
  simp [ofChar, ofChar?_of_not_symbol hsymbol, read?_of_not_symbol hsymbol, hapostrophe, hquote,
    hdigit, h]

/-! ### Whole lexemes -/

theorem ofChar_before {c : Char} {cs : List Char} (hclosed : (ofChar c cs).content.Closed)
    (hrest : StandsFor (ofChar c cs).rest rest) :
    ∃ more, (ofChar c cs).covered = c :: more ∧
      ofChar c (more ++ rest) = (ofChar c cs).before rest := by
  by_cases hdigit : c.isDigit
  · rw [ofChar_digit hdigit] at hrest ⊢
    obtain ⟨more, hmore⟩ : ∃ more, (ofNumeral (c :: cs)).covered = c :: more := by
      rw [covered_ofNumeral, Numeral.text, Numeral.whole_read, List.takeWhile_cons_of_pos hdigit]
      exact ⟨_, rfl⟩
    have hsame := ofNumeral_before hrest
    rw [hmore, List.cons_append] at hsame
    exact ⟨more, hmore, by rw [ofChar_digit hdigit, hsame]⟩
  by_cases hstart : Word.isStart c
  · rw [ofChar_start hstart] at hclosed hrest ⊢
    obtain ⟨more, hcovered, hstop, hsame⟩ :=
      ofWord_before (Text.head_dropWhile _ cs) hclosed hrest
    have hpart : ∀ d ∈ cs.takeWhile Word.isPart, Word.isPart d :=
      fun d hd => List.mem_takeWhile_imp hd
    obtain ⟨htake, hdrop⟩ := Text.span_run hpart hstop
    refine ⟨cs.takeWhile Word.isPart ++ more, hcovered, ?_⟩
    rw [ofChar_start hstart, List.append_assoc, htake, hdrop, hsame]
  by_cases hapostrophe : c = '\''
  · subst hapostrophe
    rw [ofChar_apostrophe] at hclosed hrest
    simpa only [ofChar_apostrophe] using ofString_before hclosed hrest
  by_cases hquote : c = '"'
  · subst hquote
    rw [ofChar_quote] at hclosed hrest
    simpa only [ofChar_quote] using ofQuotedName_before hclosed hrest
  cases hdelimiter : Delimiter.ofChar? c with
  | some d => exact ⟨[], by simp [ofChar, hdelimiter], by simp [ofChar, hdelimiter, before]⟩
  | none =>
    cases hoperator : Operator.read? (c :: cs) with
    | none =>
      have hnone : ∀ cs, Operator.read? (c :: cs) = none →
          ofChar c cs = ⟨[], [c], cs, .fault (.unexpectedCharacter c)⟩ := by
        intro cs h
        simp [ofChar, hdelimiter, h, hapostrophe, hquote, hdigit, hstart]
      rw [hnone cs hoperator] at hrest ⊢
      exact ⟨[], rfl, hnone rest (read?_eq_none_before hoperator hrest)⟩
    | some found =>
      obtain ⟨o, spelled, behind⟩ := found
      have hstands : StandsFor behind rest := by simpa [ofChar, hdelimiter, hoperator] using hrest
      obtain ⟨happend, hne⟩ := Operator.append_of_read? hoperator
      obtain ⟨d, more, rfl⟩ := List.exists_cons_of_ne_nil hne
      obtain ⟨rfl, -⟩ := List.cons.inj happend
      have hagain := read?_before hoperator hstands
      rw [List.cons_append] at hagain
      exact ⟨more, by simp [ofChar, hdelimiter, hoperator],
        by simp [ofChar, hdelimiter, hoperator, hagain, before]⟩

theorem source_front (text : List Char) : (front text).source = text := by
  cases text with
  | nil => rfl
  | cons c cs => exact source_ofChar c cs

/-- What a lexeme covers without a gap is read again in front of a text that stands for the rest. -/
theorem front_before {text : List Char} (hclosed : (front text).content.Closed)
    (hrest : StandsFor (front text).rest rest) :
    (front text).passed = [] ∧ (front text).covered ≠ [] ∧
      front ((front text).covered ++ rest) = (front text).before rest := by
  cases text with
  | nil => simp [front, Content.Closed] at hclosed
  | cons c cs =>
    obtain ⟨more, hcovered, hsame⟩ := ofChar_before hclosed hrest
    have hfront : front ((front (c :: cs)).covered ++ rest) = (front (c :: cs)).before rest := by
      rw [front, hcovered, List.cons_append, front, hsame]
    -- the lexeme read again splits its own text, which leaves nothing to be passed over
    have hsource := source_ofChar c (more ++ rest)
    rw [hsame, source, before] at hsource
    have hlength := congrArg List.length hsource
    simp only [hcovered, List.length_append, List.length_cons] at hlength
    have hpassed : (ofChar c cs).passed.length = 0 := by omega
    exact ⟨List.length_eq_zero_iff.1 hpassed, covered_ofChar_ne_nil c cs, hfront⟩

theorem clear_before {spelled behind : List Char} (hrest : StandsFor behind rest)
    (hne : spelled ≠ []) (h : Gap.read (spelled ++ behind) = .clear [] (spelled ++ behind)) :
    Gap.read (spelled ++ rest) = .clear [] (spelled ++ rest) := by
  rw [Gap.read_eq_clear_nil_iff] at h ⊢
  obtain ⟨hblank, hline, hblock⟩ := h
  obtain ⟨c, more, rfl⟩ := List.exists_cons_of_ne_nil hne
  -- two characters in front of `rest` are in front of `behind` too, or the second begins `rest`
  have hpair : ∀ {d e : Char}, Text.isBlank e = false → ¬ [d, e] <+: c :: more ++ behind →
      ¬ [d, e] <+: c :: more ++ rest := by
    intro d e he hno hpre
    apply hno
    rw [List.cons_append, List.cons_prefix_cons] at hpre ⊢
    refine ⟨hpre.1, ?_⟩
    cases more with
    | nil =>
      obtain ⟨tail, htail⟩ := hpre.2
      have hbehind : behind.head? = some e := by
        by_contra hhead
        exact hrest.head_ne he hhead (by rw [← List.nil_append rest, ← htail]; rfl)
      obtain ⟨ds, rfl⟩ := List.head?_eq_some_iff.1 hbehind
      exact ⟨ds, rfl⟩
    | cons f fs => simpa using hpre.2
  exact ⟨hblank, hpair (by decide) hline, hpair (by decide) hblock⟩

theorem read_of_clear {text gap rest : List Char} (h : Gap.read text = .clear gap rest) :
    read text = (front rest).behind gap ∧ gap ++ rest = text := by
  refine ⟨by simp [read, h], ?_⟩
  simpa [h, Gap.Ending.text] using Gap.text_read text

theorem read_append_of_gap {gap text : List Char}
    (h : Gap.read (gap ++ text) = (Gap.read text).after gap) :
    read (gap ++ text) = (read text).behind gap := by
  unfold read
  rw [h]
  cases Gap.read text with
  | clear more rest => simp [Gap.Ending.after, behind]
  | unclosed more comment => simp [Gap.Ending.after, behind]

/-- What a lexeme covers is read as that lexeme in front of any text that stands for the rest, behind
the gap that was passed over or without it. -/
theorem read_before {text : List Char} (hclosed : (read text).content.Closed)
    (hrest : StandsFor (read text).rest rest) :
    read ((read text).passed ++ (read text).covered ++ rest) = (read text).before rest ∧
      read ((read text).covered ++ rest) = ⟨[], (read text).covered, rest, (read text).content⟩ := by
  cases hgap : Gap.read text with
  | unclosed gap comment => simp [read, hgap, Content.Closed] at hclosed
  | clear gap behind =>
    rw [(read_of_clear hgap).1] at hclosed hrest ⊢
    obtain ⟨hpassed, hne, hsame⟩ := front_before hclosed hrest
    have hsplit := source_front behind
    rw [source, hpassed, List.nil_append] at hsplit
    have hclear := Gap.read_rest_of_clear hgap
    have htrivia := Gap.trivia_of_clear hgap
    rw [← hsplit] at hclear htrivia
    have hagain := clear_before hrest hne hclear
    have hgapped : Gap.read (gap ++ ((front behind).covered ++ rest))
        = .clear gap ((front behind).covered ++ rest) := by
      have hhead : ∀ c ∈ ((front behind).covered ++ rest).head?,
          c = '\n' ∨ c ∈ ((front behind).covered ++ (front behind).rest).head? := by
        obtain ⟨d, ds, hcovered⟩ := List.exists_cons_of_ne_nil hne
        rw [hcovered]
        exact fun c hc => .inr hc
      rw [Gap.read_append_of_trivia (htrivia.of_head hhead), hagain, Gap.Ending.after,
        List.append_nil]
    constructor
    · show read (gap ++ (front behind).passed ++ (front behind).covered ++ rest) = _
      rw [hpassed, List.append_nil, List.append_assoc, (read_of_clear hgapped).1, hsame]
      rfl
    · show read ((front behind).covered ++ rest) = _
      rw [(read_of_clear hagain).1, hsame]
      simp only [before, Lexeme.behind, List.nil_append, hpassed]

/-- What a token covers is read as that token before any text that is apart. -/
theorem read_covered_append {text : List Char} (hrest : Text.Apart rest)
    (hkind : (read text).content = .token kind) (hend : kind ≠ .endOfFile) :
    read ((read text).covered ++ rest) = ⟨[], (read text).covered, rest, .token kind⟩ := by
  have hclosed : (read text).content.Closed := by
    rw [hkind]
    cases kind with
    | endOfFile => exact absurd rfl hend
    | _ => trivial
  rw [← hkind]
  exact (read_before hclosed (.of_apart hrest _)).2

end Lexeme

end SqlScan
