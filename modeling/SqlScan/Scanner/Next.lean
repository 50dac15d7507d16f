import SqlScan.Cursor
import SqlScan.Scanner.Moves

/-!
# Scanning the next token

The gap before a token is scanned first, in a loop that takes one run of blanks and one comment each
time. Then the first character decides what kind of token there is, and all of its text is moved
over before the token is made from the text between its two ends. A gap that breaks off leaves the
start of the token where it was.
-/

namespace SqlScan

namespace Text

/-- The byte offset of the first character that is wanted. -/
def indexOf? (wanted : Char → Bool) : List Char → Option Nat
  | [] => none
  | c :: cs => if wanted c then some 0 else (indexOf? wanted cs).map (c.utf8Size + ·)

end Text

namespace Scanner

/-! ### Gaps -/

/-- Moves over the rest of a block comment, and tells whether the comment was closed. -/
def closeComment (s : Scanner) : Option (Bool × Scanner) := do
  match ← s.advance with
  | (none, t) => return (false, t)
  | (some c, t) =>
    if c = '*' then
      let (closed, u) ← t.eat '/'
      if closed then return (true, u) else s.goOn u fun _ => closeComment u
    else
      s.goOn t fun _ => closeComment t
termination_by s.left

/-- Moves over a block comment, and tells whether it was closed. -/
def skipComment (s : Scanner) : Option (Bool × Scanner) := do
  let (_, s) ← s.advance
  let (_, s) ← s.advance
  s.closeComment

/-- Moves over blanks and comments, and tells of a comment that is not closed. -/
def skipGap (s : Scanner) : Option (Option Fault × Scanner) := do
  let t ← s.eatWhile Text.isBlank
  let first ← t.peek
  let second ← t.peekNext
  if first = some '-' ∧ second = some '-' then
    let u ← t.eatWhile (· != '\n')
    s.goOn u fun _ => skipGap u
  else if first = some '/' ∧ second = some '*' then
    let (closed, u) ← t.skipComment
    if closed then
      s.goOn u fun _ => skipGap u
    else
      let fault ← u.faultFrom .unterminatedComment t.mark
      return (some fault, u)
  else
    return (none, t)
termination_by s.left

/-! ### Answers -/

def answerToken (s : Scanner) (text : String) (kind : TokenKind) : Item × Scanner :=
  (.token ⟨text, kind, s.start.spanTo s.mark, s.start.location⟩, s)

/-- A token with the text that was taken for it. -/
def answer (kind : TokenKind) (s : Scanner) : Option (Item × Scanner) := do
  let text ← s.taken
  return s.answerToken (String.ofList text) kind

def unexpected (c : Char) (s : Scanner) : Option (Item × Scanner) := do
  let text ← s.taken
  return (.fault ⟨.unexpectedCharacter c, String.ofList text, s.start.spanTo s.mark,
    s.start.location⟩, s)

/-- An operator of two characters, if the second one is next, and otherwise something else. -/
def answerPair (second : Char) (operator : Operator)
    (otherwise : Scanner → Option (Item × Scanner)) (s : Scanner) : Option (Item × Scanner) := do
  let (found, s) ← s.eat second
  if found then s.answer (.operator operator) else otherwise s

def malformed (reason : NumericFault) (s : Scanner) : Option (Item × Scanner) := do
  let fault ← s.faultFrom (.malformedNumber reason) s.start
  return (.fault fault, s)

/-! ### Quotes and names -/

/-- Moves over the rest of a quoted text, with its value so far. -/
def closeQuote (quote : Char) (opening : Mark) (value : List Char) (s : Scanner) :
    Option (Except Fault (List Char) × Scanner) := do
  match ← s.advance with
  | (none, t) =>
    let fault ← t.faultFrom .unterminatedString opening
    return (.error fault, t)
  | (some c, t) =>
    if c = quote then
      let (doubled, u) ← t.eat quote
      if doubled then
        s.goOn u fun _ => closeQuote quote opening (value ++ [quote]) u
      else
        return (.ok value, u)
    else
      s.goOn t fun _ => closeQuote quote opening (value ++ [c]) t
termination_by s.left

/-- The word from a byte offset on, and the offset where it ends. -/
def wordAt (first : Nat) (s : Scanner) : Option (List Char × Nat) := do
  let behind ← s.textFrom first
  let last := (Text.indexOf? (fun c => !Word.isPart c) behind).elim (Text.size s.source) (first + ·)
  let word ← s.textBetween first last
  return (word, last)

/-- Words that are no names: those that spell literals, and those in the table of keywords. -/
def isReserved (word : List Char) : Bool :=
  (Literal.ofWord? word).isSome || (Keyword.lookup? word).isSome

/-- A name with the segments that were moved over. The text of a dotted name has to have a dot. -/
def answerName (segments : List String) (s : Scanner) : Option (Item × Scanner) := do
  let text ← s.taken
  match Token.ofSegments? (String.ofList text) segments (s.start.spanTo s.mark) s.start.location with
  | .ok token => return (.token token, s)
  | .error _ => none

/-- Moves over the segments of a name that follow those already moved over. -/
def scanName (segments : List String) (s : Scanner) : Option (Item × Scanner) := do
  if (← s.peek) = some '.' then
    match ← s.peekNext with
    | none => s.answerName segments
    | some c =>
      if c = '"' then
        let (_, t) ← s.advance
        let opening := t.mark
        let (_, t) ← t.advance
        match ← t.closeQuote '"' opening [] with
        | (.ok value, t) => s.goOn t fun _ => scanName (segments ++ [String.ofList value]) t
        | (.error fault, t) => return (.fault fault, t)
      else if Word.isStart c then
        let (word, last) ← s.wordAt (s.position + 1)
        if isReserved word then
          s.answerName segments
        else
          let t ← s.advanceTo last
          s.goOn t fun _ => scanName (segments ++ [String.ofList word]) t
      else
        s.answerName segments
  else
    s.answerName segments
termination_by s.left

/-- A word, from behind its first character. -/
def scanWord (s : Scanner) : Option (Item × Scanner) := do
  let s ← s.eatWhile Word.isPart
  let word ← s.taken
  match Literal.ofWord? word with
  | some value => return s.answerToken (String.ofList word) (.literal value)
  | none =>
    match Keyword.lookup? word with
    | some keyword => return s.answerToken (String.ofList word) (.keyword keyword)
    | none => s.scanName [String.ofList word]

/-- A name that begins with a quoted segment, from behind the quote. -/
def scanQuotedName (s : Scanner) : Option (Item × Scanner) := do
  match ← s.closeQuote '"' s.start [] with
  | (.ok value, s) => s.scanName [String.ofList value]
  | (.error fault, s) => return (.fault fault, s)

/-- A string literal, from behind its quote. -/
def scanString (s : Scanner) : Option (Item × Scanner) := do
  match ← s.closeQuote '\'' s.start [] with
  | (.ok value, s) =>
    return s.answerToken (String.ofList value) (.literal (.string (String.ofList value)))
  | (.error fault, s) => return (.fault fault, s)

/-! ### Numerals -/

/-- Moves over a point and the digits behind it, and tells whether there were any. -/
def scanFraction (s : Scanner) : Option (Bool × Scanner) := do
  if (← s.peek) = some '.' then
    if (← s.peekNext).any Char.isDigit then
      let (_, s) ← s.advance
      let s ← s.eatWhile Char.isDigit
      return (true, s)
    else
      return (false, s)
  else
    return (false, s)

/-- Moves over a sign. -/
def scanSign (s : Scanner) : Option Scanner := do
  let next ← s.peek
  if next = some '+' ∨ next = some '-' then
    let (_, s) ← s.advance
    return s
  else
    return s

/-- Moves over digits, and tells whether there were any. -/
def eatDigits (s : Scanner) : Option (Bool × Scanner) := do
  if (← s.peek).any Char.isDigit then
    let s ← s.eatWhile Char.isDigit
    return (true, s)
  else
    return (false, s)

/-- Moves over an exponent. Tells whether there is one, and whether it has digits. -/
def scanExponent (s : Scanner) : Option (Option Bool × Scanner) := do
  let next ← s.peek
  if next = some 'e' ∨ next = some 'E' then
    let (_, s) ← s.advance
    let s ← s.scanSign
    let (found, s) ← s.eatDigits
    return (some found, s)
  else
    return (none, s)

/-- The value of a numeral that was moved over. -/
def answerNumeral (fractional : Bool) (s : Scanner) : Option (Item × Scanner) := do
  let text ← s.taken
  if fractional then
    match Binary64.ofDecimal? (Numeral.read text).1.decimal with
    | some value => return s.answerToken (String.ofList text) (.literal (.float value))
    | none => s.malformed .floatOutOfRange
  else
    let value := Decimal.natOfDigits text
    if value < Numeral.integerBound then
      return s.answerToken (String.ofList text) (.literal (.integer (Int64.ofNat value)))
    else
      s.malformed .integerOutOfRange

/-- A numeral, from behind its first digit. -/
def scanNumeral (s : Scanner) : Option (Item × Scanner) := do
  let s ← s.eatWhile Char.isDigit
  let (fractional, s) ← s.scanFraction
  match ← s.scanExponent with
  | (none, s) => s.answerNumeral fractional
  | (some true, s) => s.answerNumeral true
  | (some false, s) => s.malformed .missingExponentDigits

/-! ### The next token -/

/-- What the first character of a token, which was moved over, begins. -/
def scanFrom (c : Char) (s : Scanner) : Option (Item × Scanner) :=
  match c with
  | '(' => some (s.answerToken "(" (.delimiter .leftParen))
  | ')' => some (s.answerToken ")" (.delimiter .rightParen))
  | ',' => some (s.answerToken "," (.delimiter .comma))
  | ';' => some (s.answerToken ";" (.delimiter .semicolon))
  | '.' => some (s.answerToken "." (.delimiter .dot))
  | '+' => s.answer (.operator .plus)
  | '-' => s.answer (.operator .minus)
  | '*' => s.answer (.operator .star)
  | '/' => s.answer (.operator .slash)
  | '%' => s.answer (.operator .percent)
  | '=' => s.answer (.operator .eq)
  | '<' =>
    s.answerPair '=' .ltEq fun s => s.answerPair '>' .notEq fun s => s.answer (.operator .lt)
  | '>' => s.answerPair '=' .gtEq fun s => s.answer (.operator .gt)
  | '!' => s.answerPair '=' .notEq fun s => s.unexpected c
  | '|' => s.answerPair '|' .concat fun s => s.unexpected c
  | '\'' => s.scanString
  | '"' => s.scanQuotedName
  | c =>
    if c.isDigit then s.scanNumeral
    else if Word.isStart c then s.scanWord
    else s.unexpected c

/-- The token or fault that begins where the scanner is. -/
def front (s : Scanner) : Option (Item × Scanner) := do
  let (first, s) ← s.advance
  match first with
  | none => return (.token (.endOfFile (s.start.spanTo s.mark) s.start.location), s)
  | some c => s.scanFrom c

/-- The next token or fault. -/
def next (s : Scanner) : Option (Item × Scanner) := do
  match ← s.skipGap with
  | (some fault, s) => return (.fault fault, s)
  | (none, s) => front { s with start := s.mark }

end Scanner

end SqlScan
