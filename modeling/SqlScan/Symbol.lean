/-!
# Operators and delimiters

Both are fixed spellings. A delimiter is one character; an operator is one or two, and where two
characters spell an operator the second is never left over, which is all that longest match asks
of them. Inequality has two spellings and is written with the first.
-/

namespace SqlScan

inductive Operator where
  | eq | notEq | lt | ltEq | gt | gtEq | plus | minus | star | slash | percent | concat
  deriving DecidableEq, Repr

namespace Operator

def all : List Operator :=
  [.eq, .notEq, .lt, .ltEq, .gt, .gtEq, .plus, .minus, .star, .slash, .percent, .concat]

/-- The spelling an operator is written with. -/
def spelling : Operator → String
  | .eq => "="
  | .notEq => "<>"
  | .lt => "<"
  | .ltEq => "<="
  | .gt => ">"
  | .gtEq => ">="
  | .plus => "+"
  | .minus => "-"
  | .star => "*"
  | .slash => "/"
  | .percent => "%"
  | .concat => "||"

/-- The name an operator has in exported tokens. -/
def label : Operator → String
  | .eq => "Eq"
  | .notEq => "NotEq"
  | .lt => "Lt"
  | .ltEq => "LtEq"
  | .gt => "Gt"
  | .gtEq => "GtEq"
  | .plus => "Plus"
  | .minus => "Minus"
  | .star => "Star"
  | .slash => "Slash"
  | .percent => "Percent"
  | .concat => "Concat"

def ofLabel? (name : String) : Option Operator := all.find? fun o => o.label == name

def ofChar? : Char → Option Operator
  | '=' => some .eq
  | '<' => some .lt
  | '>' => some .gt
  | '+' => some .plus
  | '-' => some .minus
  | '*' => some .star
  | '/' => some .slash
  | '%' => some .percent
  | _ => none

def ofPair? : Char → Char → Option Operator
  | '<', '=' => some .ltEq
  | '<', '>' => some .notEq
  | '!', '=' => some .notEq
  | '>', '=' => some .gtEq
  | '|', '|' => some .concat
  | _, _ => none

/-- The operator that begins a text, its spelling there, and the text after it. -/
def read? : List Char → Option (Operator × List Char × List Char)
  | c :: d :: rest =>
    match ofPair? c d with
    | some o => some (o, [c, d], rest)
    | none => (ofChar? c).map fun o => (o, [c], d :: rest)
  | [c] => (ofChar? c).map fun o => (o, [c], [])
  | [] => none

theorem append_of_read? {text spelled rest : List Char} {o : Operator}
    (h : read? text = some (o, spelled, rest)) : spelled ++ rest = text ∧ spelled ≠ [] := by
  unfold read? at h
  split at h
  · split at h <;> simp at h <;> grind
  · simp at h
    grind
  · simp at h

end Operator

inductive Delimiter where
  | leftParen | rightParen | comma | semicolon | dot
  deriving DecidableEq, Repr

namespace Delimiter

def all : List Delimiter := [.leftParen, .rightParen, .comma, .semicolon, .dot]

/-- The character that is the delimiter. -/
def char : Delimiter → Char
  | .leftParen => '('
  | .rightParen => ')'
  | .comma => ','
  | .semicolon => ';'
  | .dot => '.'

/-- The name a delimiter has in exported tokens. -/
def label : Delimiter → String
  | .leftParen => "LeftParen"
  | .rightParen => "RightParen"
  | .comma => "Comma"
  | .semicolon => "Semicolon"
  | .dot => "Dot"

def ofLabel? (name : String) : Option Delimiter := all.find? fun d => d.label == name

def ofChar? (c : Char) : Option Delimiter := all.find? fun d => d.char == c

theorem char_of_ofChar? {c : Char} {d : Delimiter} (h : ofChar? c = some d) : d.char = c := by
  simpa using List.find?_some h

end Delimiter

end SqlScan
