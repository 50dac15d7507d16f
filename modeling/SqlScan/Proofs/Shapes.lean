import SqlScan.Proofs.Extent
import SqlScan.Rendering

/-!
# What a lexeme can be

A lexeme read without a gap is one of three: a token, which is written as the text that it covers; a
fault, with nothing passed over either; or the fault behind a dotted name that breaks off at a quote
that nothing closes, with the name passed over. Each reader gives one of them, and everything that
is said of what reading passes over and covers is read off these three.
-/

namespace SqlScan

/-! ### What a token covers -/

namespace TokenKind

/-- A token of this kind that covers this text is written as the text. -/
def WrittenAs (covered : List Char) : TokenKind → Prop
  | .literal (.string value) => covered = Quoted.text '\'' value.toList
  | .delimiter d => covered = [d.char]
  | .endOfFile => covered = []
  | _ => True

theorem written_of_writtenAs {kind : TokenKind} {covered : List Char} (h : kind.WrittenAs covered)
    (span : Span) (location : Location) :
    (Token.mk (kind.textOf covered) kind span location).written.toList = covered := by
  unfold WrittenAs at h
  split at h
  · simp [Token.written, Literal.written, h]
  · simp [Token.written, textOf, h]
  · simp [Token.written, textOf, h]
  · rename_i hstring hdelimiter hend
    have hwritten : (Token.mk (kind.textOf covered) kind span location).written
        = kind.textOf covered := by
      unfold Token.written
      split
      · rename_i hkind
        exact absurd hkind (hstring _)
      · rfl
    have htext : kind.textOf covered = String.ofList covered := by
      unfold textOf
      split
      · exact absurd rfl (hstring _)
      · exact absurd rfl (hdelimiter _)
      · exact absurd rfl hend
      · rfl
    rw [hwritten, htext, String.toList_ofList]

theorem writtenAs_ofSegments (covered : List Char) (segments : List String) :
    (ofSegments segments).WrittenAs covered := by
  unfold ofSegments
  split <;> trivial

theorem writtenAs_of_ofWord? {word : List Char} {value : Literal}
    (h : Literal.ofWord? word = some value) : (literal value).WrittenAs word := by
  unfold Literal.ofWord? at h
  split at h <;> cases h <;> trivial

theorem writtenAs_of_literal {n : Numeral} {value : Literal} (h : n.literal = .ok value) :
    (literal value).WrittenAs n.text := by
  unfold Numeral.literal at h
  split at h
  · cases h
  · split at h
    · dsimp only at h
      split at h <;> cases h
      trivial
    · split at h <;> cases h
      trivial

end TokenKind

/-! ### The three shapes -/

/-- What reading a numeral makes of it. -/
def Numeral.content (n : Numeral) : Content :=
  match n.literal with
  | .ok value => .token (.literal value)
  | .error reason => .fault (.malformedNumber reason)

/-- Segments with their dots, in front of a quote that nothing closes. -/
def Name.BreaksOff (name quoted : List Char) : Prop :=
  ∃ (first : Segment) (segments : List Segment) (value : List Char),
    first.WellFormed ∧ (∀ s ∈ segments, s.WellFormed) ∧
      name = first.text ++ Name.continued segments ++ ['.'] ∧
      quoted = '"' :: Quoted.encode '"' value

namespace Lexeme

inductive Shape : Lexeme → Prop where
  | token {covered rest : List Char} {kind : TokenKind} (h : kind.WrittenAs covered) :
      Shape ⟨[], covered, rest, .token kind⟩
  | fault {covered rest : List Char} {cause : Cause} : Shape ⟨[], covered, rest, .fault cause⟩
  | broken {name quoted : List Char} (h : Name.BreaksOff name quoted) :
      Shape ⟨name, quoted, [], .fault .unterminatedString⟩

theorem shape_ofName {first : Segment} (hfirst : first.WellFormed) (text : List Char) :
    Shape (ofName first text) := by
  have hsegments := Name.wellFormed_continuation text
  unfold ofName
  split
  · exact .token (TokenKind.writtenAs_ofSegments _ _)
  · rename_i segments quoted hk
    obtain ⟨value, rfl⟩ := Name.exists_encode_of_unclosed hk
    rw [hk] at hsegments
    exact .broken ⟨first, segments, value, hfirst, hsegments, rfl, rfl⟩

theorem shape_ofWord {word : List Char} (hword : Word.IsWord word) (text : List Char) :
    Shape (ofWord word text) := by
  unfold ofWord
  split
  · rename_i hvalue
    exact .token (TokenKind.writtenAs_of_ofWord? hvalue)
  · split
    · exact .token trivial
    · rename_i hliteral _ hkeyword
      apply shape_ofName
      exact ⟨hword, by simp [Word.isReserved, hliteral, hkeyword]⟩

theorem shape_ofString (body : List Char) : Shape (ofString body) := by
  unfold ofString
  split
  · apply Shape.token
    rw [TokenKind.WrittenAs, String.toList_ofList]
  · exact .fault

theorem shape_ofQuotedName (body : List Char) : Shape (ofQuotedName body) := by
  unfold ofQuotedName
  split
  · rename_i value rest _
    have hquoted : (Segment.quoted value).WellFormed := trivial
    exact shape_ofName hquoted rest
  · exact .fault

theorem shape_ofNumeral (text : List Char) : Shape (ofNumeral text) := by
  unfold ofNumeral
  split
  split
  · rename_i hvalue
    exact .token (TokenKind.writtenAs_of_literal hvalue)
  · exact .fault

theorem shape_ofChar (c : Char) (cs : List Char) : Shape (ofChar c cs) := by
  refine ofChar_cases ?delimiter ?operator ?string ?quotedName ?numeral ?word ?unexpected
  case delimiter =>
    intro d hdelimiter
    apply Shape.token
    rw [TokenKind.WrittenAs, Delimiter.char_of_ofChar? hdelimiter]
  case operator => exact fun _ _ _ _ => .token trivial
  case string => exact fun _ => shape_ofString cs
  case quotedName => exact fun _ => shape_ofQuotedName cs
  case numeral => exact fun _ => shape_ofNumeral _
  case word => exact fun hstart => shape_ofWord (Word.isWord_takeWhile cs hstart) _
  case unexpected => exact .fault

theorem shape_front (text : List Char) : Shape (front text) := by
  cases text with
  | nil => exact .token rfl
  | cons c cs => exact shape_ofChar c cs

/-! ### Contents -/

theorem ofNumeral_eq (text : List Char) :
    ofNumeral text = ⟨[], (Numeral.read text).1.text, (Numeral.read text).2,
      (Numeral.read text).1.content⟩ := by
  unfold ofNumeral Numeral.content
  dsimp only
  cases (Numeral.read text).1.literal <;> rfl

/-- What a lexeme read without a gap is comes from one of the readers, and only a numeral's literal
is a number. -/
theorem content_front_cases {motive : Content → Prop}
    (endOfFile : motive (.token .endOfFile))
    (delimiter : ∀ d, motive (.token (.delimiter d)))
    (operator : ∀ o, motive (.token (.operator o)))
    (keyword : ∀ k, motive (.token (.keyword k)))
    (name : ∀ segments, motive (.token (.ofSegments segments)))
    (null : motive (.token (.literal .null)))
    (boolean : ∀ b, motive (.token (.literal (.boolean b))))
    (string : ∀ value, motive (.token (.literal (.string value))))
    (numeral : ∀ n : Numeral, motive n.content)
    (unterminated : motive (.fault .unterminatedString))
    (unexpected : ∀ c, motive (.fault (.unexpectedCharacter c))) (text : List Char) :
    motive (front text).content := by
  have hname : ∀ first rest, motive (ofName first rest).content := by
    intro first rest
    unfold ofName
    split
    · exact name _
    · exact unterminated
  cases text with
  | nil => exact endOfFile
  | cons c cs =>
    refine ofChar_cases (motive := fun x => motive x.content) ?_ ?_ ?string ?quotedName ?numeral
      ?word (unexpected c)
    · exact fun d _ => delimiter d
    · exact fun o _ _ _ => operator o
    case string =>
      intro _
      unfold ofString
      split
      · exact string _
      · exact unterminated
    case quotedName =>
      intro _
      unfold ofQuotedName
      split
      · exact hname _ _
      · exact unterminated
    case numeral =>
      intro _
      rw [ofNumeral_eq]
      exact numeral _
    case word =>
      intro _
      unfold ofWord
      split
      · rename_i hvalue
        unfold Literal.ofWord? at hvalue
        split at hvalue <;> cases hvalue
        · exact boolean true
        · exact boolean false
        · exact null
      · split
        · exact keyword _
        · exact hname _ _

/-! ### Behind a gap -/

/-- What a token passes over is trivia, and the token is written as what it covers. -/
theorem trivia_passed_of_token {text : List Char} {kind : TokenKind}
    (h : (read text).content = .token kind) :
    Gap.Trivia ((read text).covered ++ (read text).rest) (read text).passed ∧
      kind.WrittenAs (read text).covered := by
  cases hgap : Gap.read text with
  | unclosed gap comment => simp [read, hgap] at h
  | clear gap rest =>
    have htrivia := Gap.trivia_of_clear hgap
    have hsource := source_front rest
    have hshape := shape_front rest
    rw [(read_of_clear hgap).1] at h ⊢
    generalize front rest = x at h hsource hshape ⊢
    cases hshape with
    | token hwritten =>
      cases h
      rw [source, List.nil_append] at hsource
      rw [behind, List.append_nil, hsource]
      exact ⟨htrivia, hwritten⟩
    | fault => cases h
    | broken => cases h

@[simp] theorem read_nil : read [] = ⟨[], [], [], .token .endOfFile⟩ := by
  simp [read, Gap.read, front, behind]

theorem rest_of_endOfFile {text : List Char} (h : (read text).content = .token .endOfFile) :
    (read text).rest = [] := by
  have hcovered : (read text).covered = [] := (trivia_passed_of_token h).2
  cases hgap : Gap.read text with
  | unclosed gap comment => simp [read, hgap]
  | clear gap rest =>
    rw [(read_of_clear hgap).1] at hcovered ⊢
    cases rest with
    | nil => rfl
    | cons c cs => exact absurd hcovered (covered_ofChar_ne_nil c cs)

end Lexeme

end SqlScan
