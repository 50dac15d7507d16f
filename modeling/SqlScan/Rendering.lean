import SqlScan.Token

/-!
# Values and tokens written back

A finite number is written with its shortest digits. Ordinary sizes are written out in full, always
with a point, and the others with a power of ten, so that no written number reads as an integer.

A literal is written so that it reads back as the same value: a string between single quotes with
its quotes doubled, an integer without a point, and a float with a point or a power of ten. Only a
sign is lost on the way, since it is an operator in front of the number.

Written with the gaps that stood between them, the tokens of a source give the source. Written with
one space between them they give a text that reads as the same tokens.
-/

namespace SqlScan

/-! ### Numbers -/

/-- How the digits of a number are chosen and laid out. Those numbers are written out whose first
digit stands at a place from `least` to `most`, where place one is that of the units. -/
structure Layout where
  least : Int
  most : Int
  /-- Which of two equally near shortest decimals is written. -/
  tie : Tie
  /-- Whether a power of ten that is not negative has a plus sign. -/
  plus : Bool

/-- Written out from a ten-thousandth up to but not including ten to the sixteenth. Ties go up, and
powers of ten have no plus sign. -/
def Layout.literal : Layout where
  least := -3
  most := 16
  tie := .upper
  plus := false

/-- Written out from one place further below the point than a literal. Ties go to the even digit,
and powers of ten have a plus sign. -/
def Layout.document : Layout where
  least := -4
  most := 16
  tie := .even
  plus := true

namespace Binary64

/-- The digits of a finite magnitude. -/
def digitsIn (layout : Layout) (magnitude : Nat) : List Char :=
  let decimal := shortest layout.tie magnitude
  let place := decimal.digits.2
  if layout.least ≤ place ∧ place ≤ layout.most then decimal.positional
  else decimal.scientific layout.plus

/-- A number as text, the sign first; positive numbers have none. -/
def writtenIn (layout : Layout) (x : Binary64) : String :=
  let signed (digits : List Char) := String.ofList (if x.negative then '-' :: digits else digits)
  if x.isNaN then "NaN"
  else if x.isFinite then signed (digitsIn layout x.magnitude)
  else signed ['i', 'n', 'f']

def written (x : Binary64) : String := x.writtenIn .literal

end Binary64

/-! ### Literals and tokens -/

/-- A literal as it is written in a source. -/
def Literal.written : Literal → String
  | .string value => String.ofList (Quoted.text '\'' value.toList)
  | .integer value => toString value.toInt
  | .float value => value.written
  | .boolean true => "TRUE"
  | .boolean false => "FALSE"
  | .null => "NULL"

/-- The token as it is written in a source. -/
def Token.written (t : Token) : String :=
  match t.kind with
  | .literal (.string value) => (Literal.string value).written
  | _ => t.text

/-! ### Sources -/

/-- The text from byte `start` on, with each token written in place of the text that it covers. -/
def rebuiltFrom (source : List Char) (start : Nat) : List Token → List Char
  | [] => (Text.slice? start (Text.size source) source).getD []
  | t :: ts =>
    (Text.slice? start t.span.start source).getD [] ++ t.written.toList
      ++ rebuiltFrom source t.span.stop ts

/-- The gaps of a source with its tokens written between them. -/
def rebuilt (source : List Char) (tokens : List Token) : List Char := rebuiltFrom source 0 tokens

/-- The tokens of a list before its end-of-file token, one space between any two. -/
def rendered (tokens : List Token) : String :=
  " ".intercalate ((tokens.filter fun t => !t.isEndOfFile).map Token.written)

/-- Whether two token lists have the same kinds, values and names included. -/
def sameKinds (left right : List Token) : Bool := left.map Token.kind == right.map Token.kind

end SqlScan
