import SqlScan.Proofs.NameTokens
import SqlScan.Proofs.Replies

/-!
# Tokens side by side

A reader stops only where the text does not go on with its token, so the text behind a token says
something about the token (`TokenKind.EndsBefore`): a lexeme carries that from the reader that gave it.
A minus or a slash says even more, since in front of the second half of a comment it is no token. If
another token begins right behind the first, its first character is the one that the reader stopped
at, and every pair that could have been one token is excluded.
-/

namespace SqlScan

open Name (StandsBefore)

/-! ### Operators -/

namespace Operator

theorem spelling_of_ofChar? {c : Char} {o : Operator} (h : ofChar? c = some o) :
    o.spelling.toList = [c] := by
  unfold ofChar? at h
  split at h <;> cases h <;> rfl

theorem length_spelling_of_ofPair? {c d : Char} {o : Operator} (h : ofPair? c d = some o) :
    o.spelling.toList.length = 2 := by
  unfold ofPair? at h
  split at h <;> cases h <;> rfl

/-- An operator of one character is read where that character begins no operator of two. -/
theorem single_of_read? {text spelled rest : List Char} {o : Operator} {c : Char}
    (h : read? text = some (o, spelled, rest)) (hspelling : o.spelling.toList = [c]) :
    spelled = [c] ∧ ∀ d ∈ rest.head?, ofPair? c d = none := by
  have hsingle : ∀ {e : Char}, ofChar? e = some o → e = c := by
    intro e he
    exact (List.cons.inj ((spelling_of_ofChar? he).symm.trans hspelling)).1
  unfold read? at h
  split at h
  · split at h
    · rename_i hpair
      obtain ⟨rfl, -⟩ := Prod.mk.inj (Option.some.inj h)
      have hlength := length_spelling_of_ofPair? hpair
      rw [hspelling] at hlength
      cases hlength
    · rename_i hpair
      obtain ⟨found, hchar, heq⟩ := Option.map_eq_some_iff.1 h
      simp only [Prod.mk.injEq] at heq
      obtain ⟨rfl, rfl, rfl⟩ := heq
      rw [hsingle hchar] at hpair ⊢
      simpa using hpair
  · obtain ⟨found, hchar, heq⟩ := Option.map_eq_some_iff.1 h
    simp only [Prod.mk.injEq] at heq
    obtain ⟨rfl, rfl, rfl⟩ := heq
    rw [hsingle hchar]
    simp
  · cases h

end Operator

/-! ### Letters of numerals and the last character of a name -/

theorem Numeral.WellFormed.letter_mem_text {n : Numeral} (h : n.WellFormed) {e : Exponent}
    (he : e ∈ n.exponent) : 'e' ∈ n.text ∨ 'E' ∈ n.text := by
  have hmem : e.letter ∈ n.text := by
    rw [text, Option.mem_def.1 he]
    simp [Exponent.text]
  rcases (h.exponent e he).letter with hletter | hletter
  · exact .inl (hletter ▸ hmem)
  · exact .inr (hletter ▸ hmem)

namespace Name

variable {segments : List Segment} {rest : List Char}

theorem exists_written_eq_append {s : Segment} (h : segments.getLast? = some s) :
    ∃ front, written segments = front ++ s.text := by
  obtain ⟨before, rfl⟩ := List.getLast?_eq_some_iff.1 h
  clear h
  induction before with
  | nil => exact ⟨[], List.intercalate_singleton⟩
  | cons t more ih =>
    obtain ⟨front, hfront⟩ := ih
    have hne : more ++ [s] ≠ [] := by simp
    refine ⟨t.text ++ '.' :: front, ?_⟩
    rw [List.cons_append, written_cons, ← dot_written hne, hfront]
    simp

/-- Whether the last segment is quoted is told by the last character. -/
theorem StandsBefore.head_of_last (h : StandsBefore segments rest) :
    ((written segments).getLast? = some '"' → rest.head? ≠ some '"') ∧
      ((written segments).getLast? ≠ some '"' → ∀ c ∈ rest.head?, Word.isPart c = false) := by
  obtain ⟨s, hs⟩ := List.getLast?_isSome.2 h.ne_nil |> Option.isSome_iff_exists.1
  obtain ⟨front, hwritten⟩ := exists_written_eq_append hs
  have hwell := h.wellFormed s (List.mem_of_getLast? hs)
  have hends := h.last s hs
  cases s with
  | quoted value =>
    have hlast : (written segments).getLast? = some '"' := by
      rw [hwritten, Segment.text, Quoted.text, ← List.cons_append, ← List.append_assoc,
        List.getLast?_concat]
    exact ⟨fun _ => hends, fun hne => absurd hlast hne⟩
  | bare word =>
    obtain ⟨⟨c, cs, rfl, hstart, hparts⟩, -⟩ := hwell
    refine ⟨fun hlast => ?_, fun _ => hends⟩
    rw [hwritten, Segment.text, List.getLast?_append_of_ne_nil front (List.cons_ne_nil c cs)] at hlast
    have hmem := List.mem_of_getLast? hlast
    rcases List.mem_cons.1 hmem with rfl | hmem
    · exact absurd hstart (by decide)
    · exact absurd (hparts _ hmem) (by decide)

end Name

/-! ### Where a token ends -/

namespace TokenKind

/-- The text `rest` does not go on with a token of this kind that covers the other text. -/
def EndsBefore (covered rest : List Char) : TokenKind → Prop
  | .keyword _ | .literal (.boolean _) | .literal .null => ∀ c ∈ rest.head?, Word.isPart c = false
  | .name | .dottedName _ =>
    ∃ segments, StandsBefore segments rest ∧ covered = Name.written segments
  | .literal (.string _) => rest.head? ≠ some '\''
  | .literal (.integer _) =>
    ∃ n : Numeral, covered = n.text ∧ n.WellFormed ∧ n.EndsBefore rest ∧ n.isInteger
  | .literal (.float _) => ∃ n : Numeral, covered = n.text ∧ n.WellFormed ∧ n.EndsBefore rest
  | .operator o => Operator.read? (covered ++ rest) = some (o, covered, rest)
  | .delimiter _ | .endOfFile => True

variable {kind : TokenKind} {covered rest : List Char}

theorem endsBefore_name (h : kind.tokenClass = .identifier) :
    kind.EndsBefore covered rest ↔
      ∃ segments, StandsBefore segments rest ∧ covered = Name.written segments := by
  cases kind with
  | name | dottedName => rfl
  | _ => cases h

theorem endsBefore_of_ofWord? {word : List Char} {value : Literal}
    (hvalue : Literal.ofWord? word = some value) (hstop : ∀ c ∈ rest.head?, Word.isPart c = false) :
    (literal value).EndsBefore word rest := by
  unfold Literal.ofWord? at hvalue
  split at hvalue <;> cases hvalue <;> exact hstop

theorem endsBefore_of_literal {n : Numeral} {value : Literal} (hvalue : n.literal = .ok value)
    (hn : n.WellFormed) (hend : n.EndsBefore rest) : (literal value).EndsBefore n.text rest := by
  unfold Numeral.literal at hvalue
  split at hvalue
  · cases hvalue
  · split at hvalue
    · rename_i hinteger
      dsimp only at hvalue
      split at hvalue <;> cases hvalue
      exact ⟨n, rfl, hn, hend, hinteger⟩
    · split at hvalue <;> cases hvalue
      exact ⟨n, rfl, hn, hend⟩

end TokenKind

namespace Lexeme

/-- If the lexeme is a token, the text behind it does not go on with it. -/
def EndsWell (x : Lexeme) : Prop :=
  ∀ kind, x.content = .token kind → kind.EndsBefore x.covered x.rest

theorem endsWell_fault {passed covered rest : List Char} {cause : Cause} :
    EndsWell ⟨passed, covered, rest, .fault cause⟩ := nofun

theorem endsWell_token {passed covered rest : List Char} {kind : TokenKind}
    (h : kind.EndsBefore covered rest) : EndsWell ⟨passed, covered, rest, .token kind⟩ := by
  intro found hfound
  cases hfound
  exact h

theorem endsWell_ofName {first : Segment} {text : List Char} (hfirst : first.WellFormed)
    (hend : first.EndsBefore text) : EndsWell (ofName first text) := by
  have hname := nameWritten_ofName hfirst hend
  cases hk : Name.continuation text with
  | unclosed segments quoted =>
    rw [ofName, hk]
    exact endsWell_fault
  | complete segments behind =>
    have hidentifier : (ofName first text).content.IsName := by
      rw [ofName, hk]
      exact TokenKind.tokenClass_ofSegments _
    obtain ⟨written, rest, hstands, heq⟩ := hname hidentifier
    rw [heq]
    apply endsWell_token
    exact (TokenKind.endsBefore_name (TokenKind.tokenClass_ofSegments _)).2 ⟨written, hstands, rfl⟩

theorem endsWell_ofWord {word text : List Char} (hword : Word.IsWord word)
    (hstop : ∀ c ∈ text.head?, Word.isPart c = false) : EndsWell (ofWord word text) := by
  unfold ofWord
  split
  · exact endsWell_token (TokenKind.endsBefore_of_ofWord? ‹_› hstop)
  · split
    · exact endsWell_token hstop
    · rename_i hliteral _ hkeyword
      have hfirst : (Segment.bare word).WellFormed :=
        ⟨hword, by simp [Word.isReserved, hliteral, hkeyword]⟩
      exact endsWell_ofName hfirst hstop

theorem endsWell_ofString (body : List Char) : EndsWell (ofString body) := by
  unfold ofString
  split
  · exact endsWell_token (Quoted.head?_of_read? ‹_›)
  · exact endsWell_fault

theorem endsWell_ofQuotedName (body : List Char) : EndsWell (ofQuotedName body) := by
  unfold ofQuotedName
  split
  · rename_i value rest hread
    have hfirst : (Segment.quoted value).WellFormed := trivial
    exact endsWell_ofName hfirst (Quoted.head?_of_read? hread)
  · exact endsWell_fault

theorem endsWell_ofNumeral (text : List Char) : EndsWell (ofNumeral text) := by
  have hwell := Numeral.wellFormed_read text
  have hend := Numeral.endsBefore_read text
  unfold ofNumeral
  split
  rename_i hread
  rw [hread] at hwell hend
  split
  · exact endsWell_token (TokenKind.endsBefore_of_literal ‹_› hwell hend)
  · exact endsWell_fault

theorem endsWell_ofChar (c : Char) (cs : List Char) : EndsWell (ofChar c cs) := by
  refine ofChar_cases ?delimiter ?operator ?string ?quotedName ?numeral ?word ?unexpected
  case delimiter => exact fun _ _ => endsWell_token trivial
  case operator =>
    intro o spelled rest hread
    apply endsWell_token
    rw [TokenKind.EndsBefore, (Operator.append_of_read? hread).1, hread]
  case string => exact fun _ => endsWell_ofString cs
  case quotedName => exact fun _ => endsWell_ofQuotedName cs
  case numeral => exact fun _ => endsWell_ofNumeral _
  case word =>
    intro hstart
    exact endsWell_ofWord (Word.isWord_takeWhile cs hstart) (Text.head_dropWhile _ cs)
  case unexpected => exact endsWell_fault

theorem endsWell_front (text : List Char) : EndsWell (front text) := by
  cases text with
  | nil => exact endsWell_token trivial
  | cons c cs => exact endsWell_ofChar c cs

/-- A token begins no gap, and the text behind it does not go on with it. -/
theorem endsBefore_of_read {text : List Char} {kind : TokenKind}
    (h : (read text).content = .token kind) :
    Gap.Clear ((read text).covered ++ (read text).rest) ∧
      kind.EndsBefore (read text).covered (read text).rest := by
  cases hgap : Gap.read text with
  | unclosed gap comment =>
    rw [read, hgap] at h
    cases h
  | clear gap rest =>
    have hends := endsWell_front rest
    have hsource := source_front rest
    have hshape := shape_front rest
    have hclear := (Gap.read_eq_clear_iff.1 hgap).clear
    rw [(read_of_clear hgap).1] at h ⊢
    generalize front rest = x at h hends hsource hshape ⊢
    cases hshape with
    | token =>
      rw [source, List.nil_append] at hsource
      rw [← hsource] at hclear
      exact ⟨hclear, hends kind h⟩
    | fault => cases h
    | broken => cases h

end Lexeme

/-! ### Tokens in their source -/

namespace Token

/-- The first character of a token in its source; the end of the source has none. -/
def first? (source : List Char) (t : Token) : Option Char := (t.span.slice? source).bind List.head?

def last? (source : List Char) (t : Token) : Option Char := (t.span.slice? source).bind List.getLast?

/-- The character right behind a token. -/
def next? (source : List Char) (t : Token) : Option Char :=
  (Text.cut? t.span.stop source).bind fun parts => parts.2.head?

/-- The token is written with a letter that begins an exponent. -/
def HasLetter (source : List Char) (t : Token) : Prop :=
  ∃ text ∈ t.span.slice? source, 'e' ∈ text ∨ 'E' ∈ text

/-- In the source the token covers one text, behind another and in front of a third that it ends before. -/
structure StandsIn (source : List Char) (t : Token) (seen covered rest : List Char) : Prop where
  source_eq : source = seen ++ covered ++ rest
  span_eq : t.span = ⟨Text.size seen, Text.size (seen ++ covered)⟩
  ne_nil : covered ≠ []
  written : t.kind.WrittenAs covered
  clear : Gap.Clear (covered ++ rest)
  ends : t.kind.EndsBefore covered rest

end Token

theorem Cursor.Consistent.exists_standsIn {c : Cursor} {t : Token} (hc : c.Consistent)
    (h : c.next.1 = .token t) (hend : t.isEndOfFile = false) :
    ∃ seen covered rest, t.StandsIn c.source seen covered rest := by
  obtain ⟨hcontent, -⟩ := content_of_next h
  obtain ⟨hclear, hends⟩ := Lexeme.endsBefore_of_read hcontent
  obtain ⟨-, hwritten⟩ := Lexeme.trivia_passed_of_token hcontent
  obtain ⟨seen, hsource, -, hstart, hstop, -⟩ := hc.split
  have hne : c.covered ≠ [] := by
    apply covered_ne_nil
    rw [h]
    exact hend
  rw [h, Item.span] at hstart hstop
  exact ⟨seen ++ c.passed, c.covered, c.next.2.ahead, hsource, by rw [← hstart, ← hstop], hne,
    hwritten, hclear, hends⟩

/-- Every token that was read stands in the source, unless it is the end of what was read. -/
theorem Token.ReadIn.exists_standsIn {source : List Char} {t : Token} (h : t.ReadIn source)
    (hend : t.isEndOfFile = false) : ∃ seen covered rest, t.StandsIn source seen covered rest := by
  obtain ⟨c, hc, rfl, hnext | rfl⟩ := h
  · exact hc.exists_standsIn hnext hend
  · cases hend

/-- The end of what was read covers nothing. -/
theorem Token.ReadIn.slice?_of_isEndOfFile {source : List Char} {t : Token} (h : t.ReadIn source)
    (hend : t.isEndOfFile) : t.span.slice? source = some [] := by
  obtain ⟨c, hc, rfl, hnext | rfl⟩ := h
  · have hkind : t.kind = .endOfFile := by simpa [isEndOfFile] using hend
    have hcovered := (Lexeme.trivia_passed_of_token (Cursor.content_of_next hnext).1).2
    rw [hkind] at hcovered
    have hslice := Cursor.slice?_next hc hnext
    rw [Cursor.written_next hnext] at hslice
    exact hslice.trans (congrArg some hcovered)
  · exact slice?_endOfFile hc

namespace Token.StandsIn

variable {source seen covered rest seen' covered' rest' : List Char} {t a b : Token}

theorem slice?_eq (h : t.StandsIn source seen covered rest) : t.span.slice? source = some covered := by
  rw [h.span_eq, Span.slice?, h.source_eq]
  exact Text.slice?_append seen covered rest

theorem next?_eq (h : t.StandsIn source seen covered rest) : t.next? source = rest.head? := by
  rw [next?, h.span_eq, h.source_eq, Text.cut?_append, Option.bind_some]

theorem last?_eq (h : t.StandsIn source seen covered rest) : t.last? source = covered.getLast? := by
  rw [last?, h.slice?_eq, Option.bind_some]

/-- A token right behind another one begins the text that the other one ends before. -/
theorem rest_eq (ha : a.StandsIn source seen covered rest)
    (hb : b.StandsIn source seen' covered' rest') (h : a.span.stop = b.span.start) :
    rest = covered' ++ rest' := by
  rw [ha.span_eq, hb.span_eq] at h
  have hsource := ha.source_eq.symm.trans hb.source_eq
  rw [List.append_assoc seen'] at hsource
  exact (Text.append_inj_of_size hsource h).2

theorem first?_eq (ha : a.StandsIn source seen covered rest)
    (hb : b.StandsIn source seen' covered' rest') (h : a.span.stop = b.span.start) :
    b.first? source = rest.head? := by
  obtain ⟨c, cs, hcovered⟩ := List.exists_cons_of_ne_nil hb.ne_nil
  rw [first?, hb.slice?_eq, Option.bind_some, ha.rest_eq hb h, hcovered]
  rfl

/-- Such an operator is written as one character, which begins no longer operator there. -/
theorem single {o : Operator} {c : Char} (h : t.StandsIn source seen covered rest)
    (hkind : t.kind = .operator o) (hspelling : o.spelling.toList = [c]) :
    covered = [c] ∧ ∀ d ∈ rest.head?, Operator.ofPair? c d = none := by
  have hends := h.ends
  rw [hkind] at hends
  exact Operator.single_of_read? hends hspelling

theorem head_ne {o p : Operator} {c d : Char} (h : t.StandsIn source seen covered rest)
    (hkind : t.kind = .operator o) (hspelling : o.spelling.toList = [c])
    (hpair : Operator.ofPair? c d = some p) : rest.head? ≠ some d := by
  intro hhead
  rw [(h.single hkind hspelling).2 d hhead] at hpair
  cases hpair

/-- Two characters of one operator each do not begin a comment. -/
theorem not_comment {o p : Operator} {c d : Char} (ha : a.StandsIn source seen covered rest)
    (hb : b.StandsIn source seen' covered' rest') (h : a.span.stop = b.span.start)
    (ho : o.spelling.toList = [c]) (hp : p.spelling.toList = [d])
    (hcomment : [c, d] = ['-', '-'] ∨ [c, d] = ['/', '*']) :
    ¬ (a.kind = .operator o ∧ b.kind = .operator p) := by
  rintro ⟨hka, hkb⟩
  have hclear := ha.clear
  have htext : [c, d] <+: covered ++ rest := by
    rw [ha.rest_eq hb h, (ha.single hka ho).1, (hb.single hkb hp).1]
    exact ⟨rest', rfl⟩
  rcases hcomment with hcomment | hcomment <;> rw [hcomment] at htext
  · exact hclear.line htext
  · exact hclear.block htext

/-- A name is written from segments that stand before the rest. -/
theorem exists_segments (h : t.StandsIn source seen covered rest)
    (hkind : t.kind.tokenClass = .identifier) :
    ∃ segments, StandsBefore segments rest ∧ covered = Name.written segments :=
  (TokenKind.endsBefore_name hkind).1 h.ends

end Token.StandsIn

/-! ### Longest matches -/

namespace TokenKind

/-- Keywords and the literals that are words. -/
def IsWord : TokenKind → Prop
  | .keyword _ | .literal (.boolean _) | .literal .null => True
  | _ => False

def IsNumber : TokenKind → Prop
  | .literal (.integer _) | .literal (.float _) => True
  | _ => False

variable {kind : TokenKind} {covered rest : List Char}

theorem IsWord.head (hkind : kind.IsWord) (h : kind.EndsBefore covered rest) :
    ∀ c ∈ rest.head?, Word.isPart c = false := by
  unfold IsWord at hkind
  split at hkind
  · exact h
  · exact h
  · exact h
  · exact hkind.elim

theorem IsNumber.exists_numeral (hkind : kind.IsNumber) (h : kind.EndsBefore covered rest) :
    ∃ n : Numeral, covered = n.text ∧ n.WellFormed ∧ n.EndsBefore rest := by
  unfold IsNumber at hkind
  split at hkind
  · obtain ⟨n, hcovered, hn, hend, -⟩ := h
    exact ⟨n, hcovered, hn, hend⟩
  · exact h
  · exact hkind.elim

end TokenKind

/-- The first token could not have been longer, as far as the one right behind it shows: the two are
not the parts of one operator, comment, word, name, string or number. -/
structure Token.Longest (source : List Char) (a b : Token) : Prop where
  less : a.kind = .operator .lt → b.first? source ≠ some '=' ∧ b.first? source ≠ some '>'
  greater : a.kind = .operator .gt → b.first? source ≠ some '='
  line : ¬ (a.kind = .operator .minus ∧ b.kind = .operator .minus)
  block : ¬ (a.kind = .operator .slash ∧ b.kind = .operator .star)
  word : a.kind.IsWord → ∀ c ∈ b.first? source, Word.isPart c = false
  bare : a.kind.tokenClass = .identifier → a.last? source ≠ some '"' →
    ∀ c ∈ b.first? source, Word.isPart c = false
  quoted : a.kind.tokenClass = .identifier → a.last? source = some '"' →
    b.first? source ≠ some '"'
  string : ∀ u v, ¬ (a.kind = .literal (.string u) ∧ b.kind = .literal (.string v))
  digit : a.kind.IsNumber → ∀ c ∈ b.first? source, c.isDigit = false
  exponent : a.kind.IsNumber → ¬ a.HasLetter source →
    ∀ c ∈ b.first? source, c ≠ 'e' ∧ c ≠ 'E'
  point : ∀ i, a.kind = .literal (.integer i) → b.kind = .delimiter .dot →
    ∀ c ∈ b.next? source, c.isDigit = false

namespace Token.StandsIn

variable {source seen covered rest seen' covered' rest' seen'' covered'' rest'' : List Char}
  {a b c : Token}

theorem longest (ha : a.StandsIn source seen covered rest)
    (hb : b.StandsIn source seen' covered' rest') (h : a.span.stop = b.span.start) :
    a.Longest source b := by
  have hfirst := ha.first?_eq hb h
  have hends := ha.ends
  constructor
  case less =>
    intro hkind
    rw [hfirst]
    exact ⟨ha.head_ne hkind rfl rfl, ha.head_ne hkind rfl rfl⟩
  case greater =>
    intro hkind
    rw [hfirst]
    exact ha.head_ne hkind rfl rfl
  case line => exact ha.not_comment hb h rfl rfl (.inl rfl)
  case block => exact ha.not_comment hb h rfl rfl (.inr rfl)
  case word =>
    intro hkind
    rw [hfirst]
    exact hkind.head hends
  case bare =>
    intro hkind hlast
    obtain ⟨segments, hstands, hcovered⟩ := ha.exists_segments hkind
    rw [ha.last?_eq, hcovered] at hlast
    rw [hfirst]
    exact hstands.head_of_last.2 hlast
  case quoted =>
    intro hkind hlast
    obtain ⟨segments, hstands, hcovered⟩ := ha.exists_segments hkind
    rw [ha.last?_eq, hcovered] at hlast
    rw [hfirst]
    exact hstands.head_of_last.1 hlast
  case string =>
    rintro u v ⟨hka, hkb⟩
    have hwritten := hb.written
    rw [hkb] at hwritten
    rw [hka] at hends
    apply hends
    rw [ha.rest_eq hb h, show covered' = _ from hwritten]
    rfl
  case digit =>
    intro hkind
    obtain ⟨n, -, -, hend⟩ := hkind.exists_numeral hends
    rw [hfirst]
    exact hend.digit
  case exponent =>
    intro hkind hletter
    obtain ⟨n, rfl, hn, hend⟩ := hkind.exists_numeral hends
    rw [hfirst]
    apply Exponent.head_of_read?_eq_none
    apply hend.letter
    rw [Option.eq_none_iff_forall_not_mem]
    intro e he
    exact hletter ⟨n.text, ha.slice?_eq, hn.letter_mem_text he⟩
  case point =>
    intro i hka hkb
    rw [hka] at hends
    obtain ⟨n, -, -, hend, hinteger⟩ := hends
    have hdot := hb.written
    rw [hkb] at hdot
    have hpoint := hend.point hinteger
    rw [ha.rest_eq hb h, show covered' = ['.'] from hdot] at hpoint
    rw [hb.next?_eq]
    exact Numeral.fraction?_point_iff.1 hpoint

/-- Right behind a name and a dot there is no name. -/
theorem not_identifier (ha : a.StandsIn source seen covered rest)
    (hb : b.StandsIn source seen' covered' rest') (hc : c.StandsIn source seen'' covered'' rest'')
    (hab : a.span.stop = b.span.start) (hbc : b.span.stop = c.span.start)
    (hname : a.kind.tokenClass = .identifier) (hdot : b.kind = .delimiter .dot) :
    c.kind.tokenClass ≠ .identifier := by
  intro hsecond
  obtain ⟨segments, hstands, -⟩ := ha.exists_segments hname
  obtain ⟨others, hothers, hcovered⟩ := hc.exists_segments hsecond
  have hwritten := hb.written
  rw [hdot] at hwritten
  have hrest : rest = '.' :: (Name.written others ++ rest'') := by
    rw [ha.rest_eq hb hab, hb.rest_eq hc hbc, show covered' = ['.'] from hwritten, hcovered]
    rfl
  -- behind the dot the first name would have gone on with the segments of the second
  have hcomplete := hstands.complete
  rw [hrest, Name.continuation_dot_written hothers] at hcomplete
  exact hothers.ne_nil (Name.Continuation.complete.inj hcomplete).1

end Token.StandsIn

/-- Of two tokens of the stream that stand side by side the first could not have been longer, and
behind a name and a dot right behind it no name stands. -/
structure TokenStream.Longest (source : List Char) (stream : TokenStream) : Prop where
  pair : ∀ a ∈ stream.tokens, ∀ b ∈ stream.tokens, a.span.stop = b.span.start → a.Longest source b
  name : ∀ a ∈ stream.tokens, ∀ b ∈ stream.tokens, ∀ c ∈ stream.tokens,
    a.span.stop = b.span.start → b.span.stop = c.span.start → a.kind.tokenClass = .identifier →
      b.kind = .delimiter .dot → c.kind.tokenClass ≠ .identifier

theorem Token.isEndOfFile_of_identifier {t : Token} (h : t.kind.tokenClass = .identifier) :
    t.isEndOfFile = false := by
  rw [isEndOfFile, beq_eq_false_iff_ne]
  intro hkind
  rw [hkind] at h
  cases h

namespace Token.ReadIn

variable {source : List Char} {a b c : Token}

theorem longest (ha : a.ReadIn source) (hb : b.ReadIn source) (h : a.span.stop = b.span.start) :
    a.Longest source b := by
  cases hend : a.isEndOfFile with
  | true =>
    have hkind : a.kind = .endOfFile := by simpa [isEndOfFile] using hend
    constructor <;> simp [hkind, TokenKind.tokenClass, TokenKind.IsWord, TokenKind.IsNumber]
  | false =>
    cases hlast : b.isEndOfFile with
    | true =>
      have hkind : b.kind = .endOfFile := by simpa [isEndOfFile] using hlast
      have hfirst : b.first? source = none := by
        rw [first?, hb.slice?_of_isEndOfFile hlast]
        rfl
      constructor <;> simp [hkind, hfirst]
    | false =>
      obtain ⟨seen, covered, rest, ha⟩ := ha.exists_standsIn hend
      obtain ⟨seen', covered', rest', hb⟩ := hb.exists_standsIn hlast
      exact ha.longest hb h

theorem not_identifier (ha : a.ReadIn source) (hb : b.ReadIn source) (hc : c.ReadIn source)
    (hab : a.span.stop = b.span.start) (hbc : b.span.stop = c.span.start)
    (hname : a.kind.tokenClass = .identifier) (hdot : b.kind = .delimiter .dot) :
    c.kind.tokenClass ≠ .identifier := by
  intro hsecond
  obtain ⟨seen, covered, rest, ha⟩ := ha.exists_standsIn (isEndOfFile_of_identifier hname)
  obtain ⟨seen', covered', rest', hb⟩ := hb.exists_standsIn (by rw [isEndOfFile, hdot]; rfl)
  obtain ⟨seen'', covered'', rest'', hc⟩ := hc.exists_standsIn (isEndOfFile_of_identifier hsecond)
  exact ha.not_identifier hb hc hab hbc hname hdot hsecond

end Token.ReadIn

theorem TokenStream.longest_of_readIn {source : List Char} {stream : TokenStream}
    (h : ∀ t ∈ stream.tokens, t.ReadIn source) : stream.Longest source where
  pair a ha b hb := (h a ha).longest (h b hb)
  name a ha b hb c hc := (h a ha).not_identifier (h b hb) (h c hc)

/-- In every stream that a source is answered with, from its start or from anywhere that reading has
come to, no token could have been longer than it is. -/
theorem tokens_longest (settings : Settings) (source : List Char) :
    (∀ stream, (tokenize settings source).answer = .ok stream → stream.Longest source) ∧
    ∀ session, Session.Reachable settings source session → ∀ step stream log after,
      session.perform step = (.stream (.ok stream), log, after) → stream.Longest source := by
  constructor
  · intro stream h
    exact TokenStream.longest_of_readIn fun t ht => Token.readIn_of_answer h ht
  · intro session hsession step stream log after h
    exact TokenStream.longest_of_readIn
      fun t ht => hsession.readIn_of_stream (congrArg Prod.fst h) ht

/-- A reserved word is no name, so the name before the dot ends there. -/
theorem tokens_longest_reserved :
    let source := ['b', '.', 'f', 'r', 'o', 'm']
    ∃ stream a b c, (tokenize .batch source).answer = .ok stream ∧
      a ∈ stream.tokens ∧ b ∈ stream.tokens ∧ c ∈ stream.tokens ∧
      a.span = ⟨0, 1⟩ ∧ b.span = ⟨1, 2⟩ ∧ c.span = ⟨2, 6⟩ ∧
      a.Longest source b ∧ c.kind.tokenClass ≠ .identifier := by
  intro source
  let stream := ((Cursor.ofSource source).block none).stream
  have ha : ⟨"b", .name, ⟨0, 1⟩, ⟨1, 1⟩⟩ ∈ stream.tokens := by decide +kernel
  have hb : ⟨".", .delimiter .dot, ⟨1, 2⟩, ⟨1, 2⟩⟩ ∈ stream.tokens := by decide +kernel
  have hc : ⟨"from", .keyword .FROM, ⟨2, 6⟩, ⟨1, 3⟩⟩ ∈ stream.tokens := by decide +kernel
  have hanswer : (tokenize .batch source).answer = .ok stream := rfl
  have hlongest := (tokens_longest .batch source).1 stream hanswer
  exact ⟨stream, _, _, _, hanswer, ha, hb, hc, rfl, rfl, rfl, hlongest.pair _ ha _ hb rfl,
    hlongest.name _ ha _ hb _ hc rfl rfl rfl rfl⟩

end SqlScan
