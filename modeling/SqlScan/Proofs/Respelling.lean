import Mathlib.Data.List.Forall2
import SqlScan.Proofs.LetterCase
import SqlScan.Proofs.Passes

/-!
# Sources that differ in the case of their letters

Reading a source in small letters gives what reading the source gives, with the texts of tokens and
the snippets of faults in small letters: the places stay, since small letters take as many bytes as
capitals, and so do the kinds, since no reader tells the two cases apart. Two sources with the same
small letters therefore give tokens and faults that differ in the case of letters only.
-/

namespace SqlScan

open Text (lower)

/-! ### Tokens and faults in small letters -/

/-- Only the value of a string has letters. -/
def Literal.lower : Literal → Literal
  | .string value => .string value.toLower
  | value => value

theorem Literal.lower_of_ofWord? {word : List Char} {value : Literal}
    (h : ofWord? word = some value) : value.lower = value := by
  unfold ofWord? at h
  split at h <;> cases h <;> rfl

theorem Literal.lower_of_literal {n : Numeral} {value : Literal} (h : n.literal = .ok value) :
    value.lower = value := by
  unfold Numeral.literal at h
  split at h
  · cases h
  · split at h
    · dsimp only at h
      split at h <;> cases h
      rfl
    · split at h <;> cases h
      rfl

namespace TokenKind

def lower : TokenKind → TokenKind
  | .dottedName segments => .dottedName (segments.map String.toLower)
  | .literal value => .literal value.lower
  | kind => kind

theorem ofSegments_lower (segments : List String) :
    ofSegments (segments.map String.toLower) = (ofSegments segments).lower := by
  unfold ofSegments
  rw [List.length_map]
  split <;> rfl

theorem textOf_lower (covered : List Char) (kind : TokenKind) :
    kind.lower.textOf (Text.lower covered) = (kind.textOf covered).toLower := by
  cases kind with
  | literal value =>
    cases value with
    | string value => rfl
    | _ => exact (Text.toLower_ofList covered).symm
  | delimiter d => exact (Text.toLower_singleton (by cases d <;> rfl)).symm
  | endOfFile => exact (Text.toLower_ofList []).symm
  | _ => exact (Text.toLower_ofList covered).symm

end TokenKind

theorem snippet_lower (part : List Char) : snippet (lower part) = (snippet part).toLower := by
  unfold snippet
  rw [lower, ← List.map_drop, List.isEmpty_map]
  split
  · exact (Text.toLower_ofList part).symm
  · rw [Text.toLower_ofList, Text.lower_append, ← List.map_take]
    rfl

def Token.lower (t : Token) : Token := { t with text := t.text.toLower, kind := t.kind.lower }

def Fault.lower (f : Fault) : Fault := { f with snippet := f.snippet.toLower }

def Item.lower : Item → Item
  | .token t => .token t.lower
  | .fault f => .fault f.lower

theorem Token.isEndOfFile_lower (t : Token) : t.lower.isEndOfFile = t.isEndOfFile := by
  obtain ⟨text, kind, span, location⟩ := t
  cases kind <;> rfl

theorem Token.lower_endOfFile (span : Span) (location : Location) :
    (endOfFile span location).lower = endOfFile span location :=
  congrArg (Token.mk · .endOfFile span location) (Text.toLower_ofList [])

theorem Item.isEnd_lower (item : Item) : item.lower.isEnd = item.isEnd := by
  cases item with
  | token t => exact t.isEndOfFile_lower
  | fault f => rfl

/-! ### Lexemes in small letters -/

def Content.lower : Content → Content
  | .token kind => .token kind.lower
  | .fault cause => .fault cause

namespace Lexeme

def lower (x : Lexeme) : Lexeme :=
  ⟨Text.lower x.passed, Text.lower x.covered, Text.lower x.rest, x.content.lower⟩

theorem ofName_lower (first : Segment) (text : List Char) :
    ofName first.lower (Text.lower text) = (ofName first text).lower := by
  unfold ofName
  rw [Name.continuation_lower]
  cases Name.continuation text with
  | complete segments rest =>
    simp [Name.Continuation.lower, lower, Name.continued_lower, Segment.text_lower, Content.lower,
      ← TokenKind.ofSegments_lower, Segment.name_lower, Function.comp_def]
  | unclosed segments quoted =>
    simp [Name.Continuation.lower, lower, Name.continued_lower, Segment.text_lower, Content.lower]

theorem ofWord_lower (word text : List Char) :
    ofWord (Text.lower word) (Text.lower text) = (ofWord word text).lower := by
  unfold ofWord
  rw [Literal.ofWord?_lower, Keyword.ofWord?_lower]
  cases hliteral : Literal.ofWord? word with
  | some value =>
    have hvalue := Literal.lower_of_ofWord? hliteral
    simp [lower, Content.lower, TokenKind.lower, hvalue]
  | none =>
    cases Keyword.ofWord? word with
    | some keyword => rfl
    | none => exact ofName_lower (.bare word) text

theorem ofString_lower (body : List Char) :
    ofString (Text.lower body) = (ofString body).lower := by
  unfold ofString
  rw [Quoted.read?_lower '\'' (by decide)]
  cases Quoted.read? '\'' body with
  | none => rfl
  | some found =>
    simp [lower, Content.lower, TokenKind.lower, Literal.lower, Quoted.text_lower,
      Text.toLower_ofList]

theorem ofQuotedName_lower (body : List Char) :
    ofQuotedName (Text.lower body) = (ofQuotedName body).lower := by
  unfold ofQuotedName
  rw [Quoted.read?_lower '"' (by decide)]
  cases Quoted.read? '"' body with
  | none => rfl
  | some found => exact ofName_lower (.quoted found.1) found.2

theorem ofNumeral_lower (text : List Char) :
    ofNumeral (Text.lower text) = (ofNumeral text).lower := by
  have htext := Numeral.text_lower (Numeral.wellFormed_read text)
  unfold ofNumeral
  rw [Numeral.read_lower]
  cases hread : Numeral.read text with
  | mk n rest =>
    rw [hread] at htext
    simp only [Prod.map_apply, Numeral.literal_lower] at htext ⊢
    cases hliteral : n.literal with
    | ok value =>
      have hvalue := Literal.lower_of_literal hliteral
      simp [lower, Content.lower, TokenKind.lower, hvalue, htext]
    | error reason => simp [lower, Content.lower, htext]

theorem ofChar_lower (c : Char) (cs : List Char) :
    ofChar c.toLower (Text.lower cs) = (ofChar c cs).lower := by
  have hoperator := Operator.read?_lower (c :: cs)
  rw [Text.lower_cons] at hoperator
  unfold ofChar
  rw [Text.delimiter_toLower, hoperator]
  cases Delimiter.ofChar? c with
  | some d => rfl
  | none =>
    cases Operator.read? (c :: cs) with
    | some found => rfl
    | none =>
      have hapostrophe : c.toLower = '\'' ↔ c = '\'' := Text.toLower_eq_iff (by decide)
      have hquote : c.toLower = '"' ↔ c = '"' := Text.toLower_eq_iff (by decide)
      have htake := Text.takeWhile_lower Word.isPart Text.isPart_toLower cs
      have hdrop := Text.dropWhile_lower Word.isPart Text.isPart_toLower cs
      simp only [Option.map_none, hapostrophe, hquote, Text.isDigit_toLower, Text.isStart_toLower,
        htake, hdrop]
      split
      · exact ofString_lower cs
      · split
        · exact ofQuotedName_lower cs
        · split
          · exact ofNumeral_lower (c :: cs)
          · split
            · exact ofWord_lower (c :: cs.takeWhile Word.isPart) (cs.dropWhile Word.isPart)
            · rename_i hstart
              -- no letter is unexpected, so the fault names the same character
              simp [lower, Content.lower, Text.toLower_of_not_isStart hstart]

theorem front_lower (text : List Char) : front (Text.lower text) = (front text).lower := by
  cases text with
  | nil => rfl
  | cons c cs => exact ofChar_lower c cs

theorem read_lower (text : List Char) : read (Text.lower text) = (read text).lower := by
  unfold read
  rw [Gap.read_lower]
  cases Gap.read text with
  | clear gap rest => simp [Gap.Ending.lower, front_lower, behind, lower]
  | unclosed gap comment => rfl

end Lexeme

/-! ### Readings in small letters -/

theorem Mark.after_lower (m : Mark) (cs : List Char) : m.after (lower cs) = m.after cs := by
  induction cs generalizing m with
  | nil => rfl
  | cons c cs ih =>
    have hnewline : c.toLower = '\n' ↔ c = '\n' := Text.toLower_eq_iff (by decide)
    have hstep : m.advance c.toLower = m.advance c := by
      simp only [advance, Location.advance, Text.utf8Size_toLower, hnewline]
    rw [Text.lower_cons, after_cons, after_cons, hstep, ih]

theorem Lexeme.item_lower (x : Lexeme) (start stop : Mark) :
    x.lower.item start stop = (x.item start stop).lower := by
  obtain ⟨passed, covered, rest, content⟩ := x
  cases content with
  | token kind => simp [item, lower, Content.lower, Item.lower, Token.lower, TokenKind.textOf_lower]
  | fault cause => simp [item, lower, Content.lower, Item.lower, Fault.lower, snippet_lower]

namespace Cursor

def lower (c : Cursor) : Cursor := ⟨Text.lower c.source, c.mark, Text.lower c.ahead⟩

theorem next_lower (c : Cursor) : c.lower.next = (c.next.1.lower, c.next.2.lower) := by
  let x := Lexeme.read c.ahead
  have hstart : c.mark.after x.lower.passed = c.mark.after x.passed := Mark.after_lower _ _
  have hstop : (c.mark.after x.passed).after x.lower.covered
      = (c.mark.after x.passed).after x.covered := Mark.after_lower _ _
  simp only [next, lower, Lexeme.read_lower]
  rw [hstart, hstop, Lexeme.item_lower]
  rfl

theorem item_next_lower (c : Cursor) : c.lower.next.1 = c.next.1.lower :=
  congrArg Prod.fst (next_lower c)

theorem cursor_next_lower (c : Cursor) : c.lower.next.2 = c.next.2.lower :=
  congrArg Prod.snd (next_lower c)

end Cursor

def Block.lower (b : Block) : Block := ⟨b.items.map Item.lower, b.full, b.cursor.lower⟩

namespace Cursor

theorem block_lower (spare : Option Nat) (c : Cursor) :
    c.lower.block spare = (c.block spare).lower := by
  induction c using readInduction generalizing spare with
  | atEnd c hend =>
    have hlower : c.lower.next.1.isEnd := by rw [item_next_lower, Item.isEnd_lower, hend]
    rw [block_of_isEnd hend, block_of_isEnd hlower, item_next_lower, cursor_next_lower]
    rfl
  | atToken c t htoken hend ih =>
    have hlower : c.lower.next.1 = .token t.lower := by rw [item_next_lower, htoken, Item.lower]
    have hend_lower : t.lower.isEndOfFile = false := by rw [Token.isEndOfFile_lower, hend]
    rw [block_of_token htoken hend, block_of_token hlower hend_lower, cursor_next_lower, ih]
    rfl
  | atFault c f hfault ih =>
    have hlower : c.lower.next.1 = .fault f.lower := by rw [item_next_lower, hfault, Item.lower]
    match spare with
    | none =>
      rw [block_none_of_fault hfault, block_none_of_fault hlower, cursor_next_lower, ih]
      rfl
    | some 0 =>
      rw [block_zero_of_fault hfault, block_zero_of_fault hlower, cursor_next_lower]
      rfl
    | some (n + 1) =>
      rw [block_succ_of_fault hfault, block_succ_of_fault hlower, cursor_next_lower, ih]
      rfl

end Cursor

/-! ### Streams in small letters -/

def TokenStream.lower (s : TokenStream) : TokenStream :=
  ⟨s.tokens.map Token.lower, s.faults.map Fault.lower⟩

namespace Block

theorem tokens_lower (b : Block) : b.lower.tokens = b.tokens.map Token.lower :=
  Item.filterMap_map (fun item => by cases item <;> rfl) b.items

theorem faults_lower (b : Block) : b.lower.faults = b.faults.map Fault.lower :=
  Item.filterMap_map (fun item => by cases item <;> rfl) b.items

theorem stream_lower (b : Block) : b.lower.stream = b.stream.lower := by
  rw [stream, stream, tokens_lower, faults_lower, TokenStream.lower, List.map_append]
  cases hfull : b.full with
  | false => simp [lower, hfull]
  | true => simp [lower, hfull, Cursor.lower, Token.lower_endOfFile]

end Block

/-! ### Alike but for the case of letters -/

/-- Tokens that differ in the case of ASCII letters only: those of their text, and those of the value of
a string or of the parts of a name that they carry. -/
structure Token.Alike (t u : Token) : Prop where
  tokenClass : t.kind.tokenClass = u.kind.tokenClass
  span : t.span = u.span
  location : t.location = u.location
  keyword : t.keyword? = u.keyword?
  operator : t.operator? = u.operator?
  delimiter : t.delimiter? = u.delimiter?
  literal : t.literal?.map Literal.lower = u.literal?.map Literal.lower
  text : t.text.toLower = u.text.toLower
  name : t.name?.map String.toLower = u.name?.map String.toLower
  segments : t.segments?.map (List.map String.toLower) = u.segments?.map (List.map String.toLower)

/-- Faults that differ in the case of the ASCII letters of their snippets only. -/
structure Fault.Alike (f g : Fault) : Prop where
  cause : f.cause = g.cause
  span : f.span = g.span
  location : f.location = g.location
  snippet : f.snippet.toLower = g.snippet.toLower

namespace Token

variable {t u : Token}

theorem tokenClass_lower (t : Token) : t.lower.kind.tokenClass = t.kind.tokenClass := by
  obtain ⟨text, kind, span, location⟩ := t
  cases kind <;> rfl

theorem keyword?_lower (t : Token) : t.lower.keyword? = t.keyword? := by
  obtain ⟨text, kind, span, location⟩ := t
  cases kind <;> rfl

theorem operator?_lower (t : Token) : t.lower.operator? = t.operator? := by
  obtain ⟨text, kind, span, location⟩ := t
  cases kind <;> rfl

theorem delimiter?_lower (t : Token) : t.lower.delimiter? = t.delimiter? := by
  obtain ⟨text, kind, span, location⟩ := t
  cases kind <;> rfl

theorem literal?_lower (t : Token) : t.lower.literal? = t.literal?.map Literal.lower := by
  obtain ⟨text, kind, span, location⟩ := t
  cases kind <;> rfl

theorem segments?_lower (t : Token) :
    t.lower.segments? = t.segments?.map (List.map String.toLower) := by
  obtain ⟨text, kind, span, location⟩ := t
  cases kind <;> rfl

theorem undoubled_lower (text : List Char) :
    undoubled (Text.lower text) = Text.lower (undoubled text) := by
  fun_induction undoubled text with
  | case1 cs ih => exact congrArg ('"' :: ·) ih
  | case2 c cs hno ih =>
    rw [Text.lower_cons, undoubled, ih, Text.lower_cons]
    exact Text.not_begun_lower (by decide) (by decide) hno
  | case3 => rfl

theorem unquoted_lower (text : List Char) :
    unquoted (Text.lower text) = Text.lower (unquoted text) := by
  match text with
  | [] => rfl
  | c :: inner =>
    have hquote : ∀ d : Char, d.toLower = '"' ↔ d = '"' :=
      fun d => Text.toLower_eq_iff (by decide)
    by_cases hc : c = '"'
    · subst hc
      have hlast : (Text.lower inner).getLast? = some '"' ↔ inner.getLast? = some '"' := by
        simp [Text.lower, List.getLast?_map, hquote]
      have hinner : (Text.lower inner).dropLast = Text.lower inner.dropLast := by
        rw [Text.lower, ← List.map_dropLast, Text.lower]
      show unquoted ('"' :: Text.lower inner) = _
      by_cases hclosed : inner.getLast? = some '"'
      · rw [unquoted, if_pos (hlast.2 hclosed), unquoted, if_pos hclosed, hinner, undoubled_lower]
      · rw [unquoted, if_neg (mt hlast.1 hclosed), unquoted, if_neg hclosed]
        rfl
    · simp [unquoted, hc, hquote]

theorem name?_lower (t : Token) : t.lower.name? = t.name?.map String.toLower := by
  obtain ⟨text, kind, span, location⟩ := t
  cases kind with
  | name =>
    show some (String.ofList (unquoted text.toLower.toList)) = some (String.ofList _).toLower
    rw [Text.toList_toLower, unquoted_lower, Text.toLower_ofList]
  | _ => rfl

theorem alike_of_lower_eq (h : t.lower = u.lower) : t.Alike u := by
  obtain ⟨htext, -, hspan, hlocation⟩ := Token.mk.inj h
  exact {
    tokenClass := by simpa only [tokenClass_lower] using congrArg (fun t => t.kind.tokenClass) h
    span := hspan
    location := hlocation
    keyword := by simpa only [keyword?_lower] using congrArg Token.keyword? h
    operator := by simpa only [operator?_lower] using congrArg Token.operator? h
    delimiter := by simpa only [delimiter?_lower] using congrArg Token.delimiter? h
    literal := by simpa only [literal?_lower] using congrArg Token.literal? h
    text := htext
    name := by simpa only [name?_lower] using congrArg Token.name? h
    segments := by simpa only [segments?_lower] using congrArg Token.segments? h }

end Token

theorem Fault.alike_of_lower_eq {f g : Fault} (h : f.lower = g.lower) : f.Alike g := by
  obtain ⟨hcause, hsnippet, hspan, hlocation⟩ := Fault.mk.inj h
  exact ⟨hcause, hspan, hlocation, hsnippet⟩

theorem forall₂_of_map_eq {α : Type} {f : α → α} {as bs : List α} (h : as.map f = bs.map f) :
    List.Forall₂ (fun a b => f a = f b) as bs := by
  have hmaps : List.Forall₂ (· = ·) (as.map f) (bs.map f) := by
    rw [h, List.forall₂_eq_eq_eq]
  rwa [List.forall₂_map_left_iff, List.forall₂_map_right_iff] at hmaps

/-! ### Passes over sources with the same small letters -/

section

variable {source respelled : List Char}

theorem stream_lower_congr (h : lower source = lower respelled) (spare : Option Nat) :
    ((Cursor.ofSource source).block spare).stream.lower
      = ((Cursor.ofSource respelled).block spare).stream.lower := by
  have hcursor : (Cursor.ofSource source).lower = (Cursor.ofSource respelled).lower := by
    simp only [Cursor.ofSource, Cursor.lower, h]
  rw [← Block.stream_lower, ← Block.stream_lower, ← Cursor.block_lower, ← Cursor.block_lower,
    hcursor]

theorem exists_answer_failFast_iff (source : List Char) (limit : Option FaultLimit) :
    (∃ stream, (tokenize ⟨.failFast, limit⟩ source).answer = .ok stream) ↔
      ((Cursor.ofSource source).block none).faults = [] := by
  simp only [answer_failFast_eq_ok_iff, exists_and_left, exists_eq, and_true]

/-- Whatever letters of a source are written in the other case, a batch pass gives tokens and faults
that differ in the case of letters only, and a strict pass succeeds or fails as before. -/
theorem tokenize_ignores_case (h : lower source = lower respelled) :
    (∀ limit, ∃ stream other, (tokenize ⟨.batch, limit⟩ source).answer = .ok stream ∧
      (tokenize ⟨.batch, limit⟩ respelled).answer = .ok other ∧
      List.Forall₂ Token.Alike stream.tokens other.tokens ∧
      List.Forall₂ Fault.Alike stream.faults other.faults) ∧
    ∀ limit, (∃ stream, (tokenize ⟨.failFast, limit⟩ source).answer = .ok stream) ↔
      ∃ stream, (tokenize ⟨.failFast, limit⟩ respelled).answer = .ok stream := by
  constructor
  · intro limit
    have hstream := stream_lower_congr h (limit.map fun l => l.count - 1)
    have htokens := forall₂_of_map_eq (congrArg TokenStream.tokens hstream)
    have hfaults := forall₂_of_map_eq (congrArg TokenStream.faults hstream)
    exact ⟨_, _, answer_batch limit source, answer_batch limit respelled,
      htokens.imp fun _ _ => Token.alike_of_lower_eq,
      hfaults.imp fun _ _ => Fault.alike_of_lower_eq⟩
  · intro limit
    have hfaults := congrArg TokenStream.faults (stream_lower_congr h none)
    change ((Cursor.ofSource source).block none).faults.map Fault.lower
      = ((Cursor.ofSource respelled).block none).faults.map Fault.lower at hfaults
    rw [exists_answer_failFast_iff, exists_answer_failFast_iff, ← List.map_eq_nil_iff, hfaults,
      List.map_eq_nil_iff]

/-- A keyword, a name, a string and an exponent in both cases. -/
theorem tokenize_ignores_case_literals :
    lower "Select X'Ab', 1e5".toList = lower "sELECT x'aB', 1E5".toList ∧
      (∃ stream other,
        (tokenize .batch "Select X'Ab', 1e5".toList).answer = .ok stream ∧
        (tokenize .batch "sELECT x'aB', 1E5".toList).answer = .ok other ∧
        List.Forall₂ Token.Alike stream.tokens other.tokens ∧
        List.Forall₂ Fault.Alike stream.faults other.faults) ∧
      ((∃ stream, (tokenize .failFast "Select X'Ab', 1e5".toList).answer = .ok stream) ↔
        ∃ stream, (tokenize .failFast "sELECT x'aB', 1E5".toList).answer = .ok stream) := by
  have hsame : lower "Select X'Ab', 1e5".toList = lower "sELECT x'aB', 1E5".toList := by decide
  exact ⟨hsame, (tokenize_ignores_case hsame).1 none, (tokenize_ignores_case hsame).2 none⟩

end

end SqlScan
