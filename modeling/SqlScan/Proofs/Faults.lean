import SqlScan.Proofs.Names
import SqlScan.Proofs.Numerals
import SqlScan.Proofs.Reading

/-!
# What faults are about

A fault covers a part of a source, and its cause is a fact about that part: a character alone, a
numeral that has no value, a quote or a comment that nothing closes. The last two reach up to the
end, since only the end of the source shows that nothing closes them. So the cause is read off the
part and what stands behind it, without reading.
-/

namespace SqlScan

/-- What is wrong with a part of a source, in front of what is left of it. -/
inductive Cause.Explains : Cause → (part behind : List Char) → Prop where
  | unexpectedCharacter (c : Char) (behind : List Char) :
      Explains (.unexpectedCharacter c) [c] behind
  | malformedNumber {n : Numeral} (hn : n.WellFormed) (hdigit : ∃ c ∈ n.text.head?, c.isDigit)
      {reason : NumericFault} (hreason : n.literal = .error reason) (behind : List Char) :
      Explains (.malformedNumber reason) n.text behind
  | unterminatedString {quote : Char} (hquote : quote = '\'' ∨ quote = '"') (value : List Char) :
      Explains .unterminatedString (quote :: Quoted.encode quote value) []
  | unterminatedComment {body : List Char} (hbody : ¬ ['*', '/'] <:+: body) :
      Explains .unterminatedComment ('/' :: '*' :: body) []

namespace Lexeme

/-- If the lexeme is a fault, its cause is what is wrong with the text that it covers. -/
def Explained (x : Lexeme) : Prop :=
  ∀ cause, x.content = .fault cause → cause.Explains x.covered x.rest

theorem explained_of_token {x : Lexeme} {kind : TokenKind} (h : x.content = .token kind) :
    x.Explained := by
  intro cause hcause
  rw [h] at hcause
  cases hcause

theorem explained_of_fault {x : Lexeme} {cause : Cause} (h : x.content = .fault cause)
    (hexplains : cause.Explains x.covered x.rest) : x.Explained := by
  intro other hother
  rw [h] at hother
  cases hother
  exact hexplains

theorem explained_ofName (first : Segment) (text : List Char) : (ofName first text).Explained := by
  unfold ofName
  split
  · exact explained_of_token rfl
  · rename_i hunclosed
    obtain ⟨value, rfl⟩ := Name.exists_encode_of_unclosed hunclosed
    exact explained_of_fault rfl (.unterminatedString (.inr rfl) value)

theorem explained_ofWord (word text : List Char) : (ofWord word text).Explained := by
  unfold ofWord
  split
  · exact explained_of_token rfl
  · split
    · exact explained_of_token rfl
    · exact explained_ofName _ _

theorem explained_ofString (body : List Char) : (ofString body).Explained := by
  unfold ofString
  split
  · exact explained_of_token rfl
  · rename_i hunclosed
    obtain ⟨value, rfl⟩ := Quoted.exists_encode_of_read? hunclosed
    exact explained_of_fault rfl (.unterminatedString (.inl rfl) value)

theorem explained_ofQuotedName (body : List Char) : (ofQuotedName body).Explained := by
  unfold ofQuotedName
  split
  · exact explained_ofName _ _
  · rename_i hunclosed
    obtain ⟨value, rfl⟩ := Quoted.exists_encode_of_read? hunclosed
    exact explained_of_fault rfl (.unterminatedString (.inr rfl) value)

theorem explained_ofNumeral {c : Char} (cs : List Char) (h : c.isDigit) :
    (ofNumeral (c :: cs)).Explained := by
  have hn := Numeral.wellFormed_read (c :: cs)
  have hdigit : (Numeral.read (c :: cs)).1.text.head? = some c := by
    rw [Numeral.text, Numeral.whole_read, List.takeWhile_cons_of_pos h]
    rfl
  unfold ofNumeral
  split
  rename_i n rest hread
  rw [hread] at hn hdigit
  split
  · exact explained_of_token rfl
  · rename_i reason hreason
    exact explained_of_fault rfl (.malformedNumber hn ⟨c, hdigit, h⟩ hreason rest)

theorem explained_ofChar (c : Char) (cs : List Char) : (ofChar c cs).Explained := by
  refine ofChar_cases ?delimiter ?operator ?string ?quotedName ?numeral ?word ?unexpected
  case delimiter => exact fun _ _ => explained_of_token rfl
  case operator => exact fun _ _ _ _ => explained_of_token rfl
  case string => exact fun _ => explained_ofString cs
  case quotedName => exact fun _ => explained_ofQuotedName cs
  case numeral => exact explained_ofNumeral cs
  case word => exact fun _ => explained_ofWord _ _
  case unexpected => exact explained_of_fault rfl (.unexpectedCharacter c cs)

theorem explained_read (text : List Char) : (read text).Explained := by
  cases hgap : Gap.read text with
  | clear gap rest =>
    rw [read, hgap]
    cases rest with
    | nil => exact explained_of_token rfl
    | cons c cs => exact explained_ofChar c cs
  | unclosed gap comment =>
    obtain ⟨-, -, body, rfl, hbody⟩ := Gap.read_eq_unclosed_iff.1 hgap
    rw [read, hgap]
    exact explained_of_fault rfl (.unterminatedComment hbody)

end Lexeme

/-! ### Snippets -/

theorem snippet_of_le {part : List Char} (h : part.length ≤ snippetLimit) :
    snippet part = String.ofList part := by
  rw [snippet, List.drop_eq_nil_of_le h]
  rfl

theorem snippet_of_lt {part : List Char} (h : snippetLimit < part.length) :
    snippet part = String.ofList (part.take snippetLimit ++ ['.', '.', '.']) := by
  have hmore : part.drop snippetLimit ≠ [] := by
    rw [Ne, List.drop_eq_nil_iff]
    omega
  rw [snippet, if_neg (by simpa using hmore)]

/-! ### Faults that are read -/

namespace Fault

/-- What the fault says of a source is true: this part stands at its span and is what it shows, and
its cause is what is wrong with the part in front of what is left. -/
structure TrueOf (source part behind : List Char) (f : Fault) : Prop where
  slice : f.span.slice? source = some part
  left : f.span.stop + Text.size behind = Text.size source
  nonempty : part ≠ []
  shown_whole : part.length ≤ 40 → f.snippet = String.ofList part
  shown_cut : 40 < part.length → f.snippet = String.ofList (part.take 40 ++ ['.', '.', '.'])
  cause : f.cause.Explains part behind

end Fault

namespace Cursor

variable {c : Cursor} {f : Fault}

theorem snippet_of_next_fault (h : c.next.1 = .fault f) : f.snippet = snippet c.covered := by
  change (Lexeme.read c.ahead).item _ _ = _ at h
  unfold Lexeme.item at h
  split at h
  · cases h
  · cases h
    rfl

theorem explains_next (h : c.next.1 = .fault f) : f.cause.Explains c.covered c.next.2.ahead :=
  Lexeme.explained_read c.ahead f.cause (content_of_next_fault h)

theorem Consistent.trueOf_next (hc : c.Consistent) (h : c.next.1 = .fault f) :
    f.TrueOf c.source c.covered c.next.2.ahead := by
  obtain ⟨seen, hparts, -, hstart, hstop, -, -⟩ := hc.split
  have hsnippet := snippet_of_next_fault h
  have hend : c.next.1.isEnd = false := by rw [h]; rfl
  rw [h, Item.span] at hstart hstop
  refine ⟨?_, ?_, covered_ne_nil hend, ?_, ?_, explains_next h⟩
  · rw [Span.slice?, hstart, hstop, hparts]
    exact Text.slice?_append (seen ++ c.passed) c.covered c.next.2.ahead
  · rw [hstop, ← Text.size_append, ← hparts]
  · intro hlength
    rw [hsnippet]
    exact snippet_of_le hlength
  · intro hlength
    rw [hsnippet]
    exact snippet_of_lt hlength

end Cursor

end SqlScan
