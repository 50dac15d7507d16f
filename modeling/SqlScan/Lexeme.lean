import SqlScan.Fault
import SqlScan.Gap
import SqlScan.Name
import SqlScan.Token

/-!
# The lexeme that begins a text

Reading one lexeme splits a text in three: the text passed over, the text that the lexeme covers,
and the text left. No position enters here, so a lexeme depends on nothing but the text in front of
the reader, and positions follow from the first two parts alone. The three parts make up the text,
and only the end of the text gives a lexeme that covers nothing, so reading always moves on.

What is passed over is a gap, except at a quote that never closes inside a dotted name: there the
fault covers the text from that quote on, and the segments before it are passed over with the gap.
-/

namespace SqlScan

inductive Content where
  | token (kind : TokenKind)
  | fault (cause : Cause)
  deriving DecidableEq, Repr

/-- A token or a fault, with the text around it. -/
structure Lexeme where
  passed : List Char
  covered : List Char
  rest : List Char
  content : Content
  deriving DecidableEq, Repr

namespace Lexeme

def source (x : Lexeme) : List Char := x.passed ++ x.covered ++ x.rest

def behind (gap : List Char) (x : Lexeme) : Lexeme := { x with passed := gap ++ x.passed }

/-- A name that begins with a given segment. -/
def ofName (first : Segment) (text : List Char) : Lexeme :=
  match Name.continuation text with
  | .complete segments rest =>
    { passed := []
      covered := first.text ++ Name.continued segments
      rest
      content := .token (.ofSegments (first.name :: segments.map Segment.name)) }
  | .unclosed segments quoted =>
    { passed := first.text ++ Name.continued segments ++ ['.']
      covered := quoted
      rest := []
      content := .fault .unterminatedString }

/-- A word and, if it is not reserved, the name it begins. -/
def ofWord (word text : List Char) : Lexeme :=
  match Literal.ofWord? word with
  | some value => ⟨[], word, text, .token (.literal value)⟩
  | none =>
    match Keyword.ofWord? word with
    | some keyword => ⟨[], word, text, .token (.keyword keyword)⟩
    | none => ofName (.bare word) text

/-- A string literal, from the text after its opening quote. -/
def ofString (body : List Char) : Lexeme :=
  match Quoted.read? '\'' body with
  | some (value, rest) =>
    ⟨[], Quoted.text '\'' value, rest, .token (.literal (.string (String.ofList value)))⟩
  | none => ⟨[], '\'' :: body, [], .fault .unterminatedString⟩

/-- A name that begins with a quoted segment, from the text after its opening quote. -/
def ofQuotedName (body : List Char) : Lexeme :=
  match Quoted.read? '"' body with
  | some (value, rest) => ofName (.quoted value) rest
  | none => ⟨[], '"' :: body, [], .fault .unterminatedString⟩

/-- A numeral, from its first digit on. -/
def ofNumeral (text : List Char) : Lexeme :=
  let (numeral, rest) := Numeral.read text
  match numeral.literal with
  | .ok value => ⟨[], numeral.text, rest, .token (.literal value)⟩
  | .error reason => ⟨[], numeral.text, rest, .fault (.malformedNumber reason)⟩

def ofChar (c : Char) (cs : List Char) : Lexeme :=
  match Delimiter.ofChar? c with
  | some d => ⟨[], [c], cs, .token (.delimiter d)⟩
  | none =>
    match Operator.read? (c :: cs) with
    | some (o, spelled, rest) => ⟨[], spelled, rest, .token (.operator o)⟩
    | none =>
      if c = '\'' then ofString cs
      else if c = '"' then ofQuotedName cs
      else if c.isDigit then ofNumeral (c :: cs)
      else if Word.isStart c then
        ofWord (c :: cs.takeWhile Word.isPart) (cs.dropWhile Word.isPart)
      else ⟨[], [c], cs, .fault (.unexpectedCharacter c)⟩

/-- A lexeme that a character begins is one that some reader gives. -/
theorem ofChar_cases {motive : Lexeme → Prop} {c : Char} {cs : List Char}
    (delimiter : ∀ d, Delimiter.ofChar? c = some d → motive ⟨[], [c], cs, .token (.delimiter d)⟩)
    (operator : ∀ o spelled rest, Operator.read? (c :: cs) = some (o, spelled, rest) →
      motive ⟨[], spelled, rest, .token (.operator o)⟩)
    (string : c = '\'' → motive (ofString cs))
    (quotedName : c = '"' → motive (ofQuotedName cs))
    (numeral : c.isDigit → motive (ofNumeral (c :: cs)))
    (word : Word.isStart c →
      motive (ofWord (c :: cs.takeWhile Word.isPart) (cs.dropWhile Word.isPart)))
    (unexpected : motive ⟨[], [c], cs, .fault (.unexpectedCharacter c)⟩) :
    motive (ofChar c cs) := by
  unfold ofChar
  split
  · exact delimiter _ ‹_›
  · split
    · exact operator _ _ _ ‹_›
    · split
      · exact string ‹_›
      · split
        · exact quotedName ‹_›
        · split
          · exact numeral ‹_›
          · split
            · exact word ‹_›
            · exact unexpected

def front : List Char → Lexeme
  | [] => ⟨[], [], [], .token .endOfFile⟩
  | c :: cs => ofChar c cs

/-- The first lexeme of a text. -/
def read (text : List Char) : Lexeme :=
  match Gap.read text with
  | .clear gap rest => (front rest).behind gap
  | .unclosed gap comment => ⟨gap, comment, [], .fault .unterminatedComment⟩

@[simp] theorem source_behind (gap : List Char) (x : Lexeme) :
    (x.behind gap).source = gap ++ x.source := by
  simp [source, behind]

theorem source_ofName (first : Segment) (text : List Char) :
    (ofName first text).source = first.text ++ text := by
  have h := Name.text_continuation text
  unfold ofName
  split <;> rename_i hk <;> rw [hk] at h <;> simp_all [source, Name.Continuation.text]

theorem source_ofWord (word text : List Char) : (ofWord word text).source = word ++ text := by
  unfold ofWord
  split
  · simp [source]
  · split
    · simp [source]
    · simp [source_ofName, Segment.text]

theorem source_ofString (body : List Char) : (ofString body).source = '\'' :: body := by
  unfold ofString
  split
  · rename_i h
    simp [source, Quoted.text_append_of_read? h]
  · simp [source]

theorem source_ofQuotedName (body : List Char) : (ofQuotedName body).source = '"' :: body := by
  unfold ofQuotedName
  split
  · rename_i h
    simp [source_ofName, Segment.text, Quoted.text_append_of_read? h]
  · simp [source]

theorem source_ofNumeral (text : List Char) : (ofNumeral text).source = text := by
  have h := Numeral.text_append_of_read text
  unfold ofNumeral
  split
  rename_i numeral rest hread
  rw [hread] at h
  split <;> simpa [source] using h

theorem source_ofChar (c : Char) (cs : List Char) : (ofChar c cs).source = c :: cs := by
  refine ofChar_cases (motive := fun x => x.source = c :: cs)
    ?delimiter ?operator ?string ?quotedName ?numeral ?word ?unexpected
  case delimiter => simp [source]
  case operator =>
    intro o spelled rest h
    simp [source, (Operator.append_of_read? h).1]
  case string =>
    rintro rfl
    exact source_ofString cs
  case quotedName =>
    rintro rfl
    exact source_ofQuotedName cs
  case numeral => exact fun _ => source_ofNumeral _
  case word => simp [source_ofWord, List.takeWhile_append_dropWhile]
  case unexpected => simp [source]

theorem source_read (text : List Char) : (read text).source = text := by
  have h := Gap.text_read text
  unfold read
  split <;> rename_i hgap <;> rw [hgap] at h
  · rename_i gap rest
    rw [source_behind, ← h]
    cases rest with
    | nil => simp [front, source, Gap.Ending.text]
    | cons c cs => simp [front, source_ofChar, Gap.Ending.text]
  · simpa [source, Gap.Ending.text] using h

theorem covered_ofName_ne_nil {first : Segment} (text : List Char) (h : first.text ≠ []) :
    (ofName first text).covered ≠ [] := by
  unfold ofName
  split
  · simp [h]
  · rename_i hk
    obtain ⟨value, rfl⟩ := Name.exists_encode_of_unclosed hk
    exact List.cons_ne_nil _ _

theorem covered_ofWord_ne_nil {word : List Char} (text : List Char) (h : word ≠ []) :
    (ofWord word text).covered ≠ [] := by
  unfold ofWord
  split
  · exact h
  · split
    · exact h
    · exact covered_ofName_ne_nil text h

theorem covered_ofString_ne_nil (body : List Char) : (ofString body).covered ≠ [] := by
  unfold ofString
  split <;> simp [Quoted.text]

theorem covered_ofQuotedName_ne_nil (body : List Char) : (ofQuotedName body).covered ≠ [] := by
  unfold ofQuotedName
  split
  · exact covered_ofName_ne_nil _ (by simp [Segment.text, Quoted.text])
  · simp

theorem covered_ofNumeral_ne_nil {c : Char} (cs : List Char) (h : c.isDigit) :
    (ofNumeral (c :: cs)).covered ≠ [] := by
  have hwhole : (Numeral.read (c :: cs)).1.text ≠ [] := by
    simp [Numeral.text, Numeral.whole_read, h]
  unfold ofNumeral
  split
  rename_i hread
  rw [hread] at hwhole
  split <;> exact hwhole

theorem covered_ofChar_ne_nil (c : Char) (cs : List Char) : (ofChar c cs).covered ≠ [] := by
  refine ofChar_cases (motive := fun x => x.covered ≠ [])
    ?delimiter ?operator ?string ?quotedName ?numeral ?word ?unexpected
  case delimiter => simp
  case operator => exact fun o spelled rest h => (Operator.append_of_read? h).2
  case string => exact fun _ => covered_ofString_ne_nil cs
  case quotedName => exact fun _ => covered_ofQuotedName_ne_nil cs
  case numeral => exact covered_ofNumeral_ne_nil cs
  case word => exact fun _ => covered_ofWord_ne_nil _ (by simp)
  case unexpected => simp

/-- Only the end of a text is a lexeme that covers nothing. -/
theorem covered_read_ne_nil {text : List Char} (h : (read text).content ≠ .token .endOfFile) :
    (read text).covered ≠ [] := by
  revert h
  unfold read
  split
  · rename_i gap rest _
    cases rest with
    | nil => simp [front, behind]
    | cons c cs => exact fun _ => covered_ofChar_ne_nil c cs
  · rename_i hgap
    have hcomment := Gap.head?_of_unclosed hgap
    rintro - rfl
    simp at hcomment

/-- Every lexeme but the end of the text leaves less to read. -/
theorem length_rest_read_lt {text : List Char} (h : (read text).content ≠ .token .endOfFile) :
    (read text).rest.length < text.length := by
  have hpos := List.length_pos_iff.2 (covered_read_ne_nil h)
  have hsource := congrArg List.length (source_read text)
  simp only [source, List.length_append] at hsource
  omega

end Lexeme

end SqlScan
