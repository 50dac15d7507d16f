import SqlScan.Position
import SqlScan.Symbol
import SqlScan.Text.Shown
import SqlScan.Word

/-!
# Tokens

A token is a kind with what only that kind carries, its text, and its place. The text is the
source's own, except for a string literal, where it is the value between the quotes; written out
again, the value gets its quotes back. A name of one segment keeps its quotes in the text, a dotted
name carries the segments without theirs.
-/

namespace SqlScan

/-- What a token is, with the data of its kind. -/
inductive TokenKind where
  | keyword (keyword : Keyword)
  | name
  | dottedName (segments : List String)
  | literal (value : Literal)
  | operator (operator : Operator)
  | delimiter (delimiter : Delimiter)
  | endOfFile
  deriving DecidableEq, Repr

inductive TokenClass where
  | keyword | identifier | literal | operator | delimiter | endOfFile
  deriving DecidableEq, Repr

namespace TokenClass

/-- The name a class has in exported tokens. -/
def label : TokenClass → String
  | .keyword => "Keyword"
  | .identifier => "Identifier"
  | .literal => "Literal"
  | .operator => "Operator"
  | .delimiter => "Delimiter"
  | .endOfFile => "EndOfFile"

def display : TokenClass → String
  | .keyword => "keyword"
  | .identifier => "identifier"
  | .literal => "literal"
  | .operator => "operator"
  | .delimiter => "delimiter"
  | .endOfFile => "end of file"

end TokenClass

namespace TokenKind

/-- The kind of a name with the given segments. -/
def ofSegments (segments : List String) : TokenKind :=
  if 1 < segments.length then .dottedName segments else .name

def tokenClass : TokenKind → TokenClass
  | .keyword _ => .keyword
  | .name | .dottedName _ => .identifier
  | .literal _ => .literal
  | .operator _ => .operator
  | .delimiter _ => .delimiter
  | .endOfFile => .endOfFile

/-- The text of a token of this kind that covers a given part of the source. -/
def textOf (covered : List Char) : TokenKind → String
  | .literal (.string value) => value
  | .delimiter d => String.singleton d.char
  | .endOfFile => ""
  | _ => String.ofList covered

theorem textOf_ofSegments (covered : List Char) (segments : List String) :
    (ofSegments segments).textOf covered = String.ofList covered := by
  unfold ofSegments
  split <;> rfl

theorem tokenClass_ofSegments (segments : List String) :
    (ofSegments segments).tokenClass = .identifier := by
  unfold ofSegments
  split <;> rfl

end TokenKind

structure Token where
  text : String
  kind : TokenKind
  span : Span
  location : Location
  deriving DecidableEq, Repr

/-- A dotted name whose text cannot be one, because it has no dot. -/
structure UndottedText where
  text : String
  deriving DecidableEq, Repr

def UndottedText.message (u : UndottedText) : String :=
  "qualified identifier text " ++ Text.showText u.text ++ " has no dotted path"

namespace Token

/-- A delimiter token, whose text is the delimiter. -/
def ofDelimiter (d : Delimiter) (span : Span) (location : Location) : Token :=
  ⟨String.singleton d.char, .delimiter d, span, location⟩

/-- The token that ends every token list; it has no text. -/
def endOfFile (span : Span) (location : Location) : Token := ⟨"", .endOfFile, span, location⟩

/-- A name token from its segments. More than one segment asks for a dot in the text. -/
def ofSegments? (text : String) (segments : List String) (span : Span) (location : Location) :
    Except UndottedText Token :=
  if 1 < segments.length ∧ !text.toList.contains '.' then
    .error ⟨text⟩
  else
    .ok ⟨text, .ofSegments segments, span, location⟩

def isEndOfFile (t : Token) : Bool := t.kind == .endOfFile

def isKeyword (t : Token) : Bool := t.kind.tokenClass == .keyword

def segments? (t : Token) : Option (List String) :=
  match t.kind with
  | .dottedName segments => some segments
  | _ => none

/-- Each doubled quote made single, from left to right. -/
def undoubled : List Char → List Char
  | '"' :: '"' :: cs => '"' :: undoubled cs
  | c :: cs => c :: undoubled cs
  | [] => []

/-- A name without the quotes around it; one that is not quoted on both sides stays as it is. -/
def unquoted (text : List Char) : List Char :=
  match text with
  | '"' :: inner => if inner.getLast? = some '"' then undoubled inner.dropLast else text
  | _ => text

def name? (t : Token) : Option String :=
  match t.kind with
  | .name => some (String.ofList (unquoted t.text.toList))
  | _ => none

def literal? (t : Token) : Option Literal :=
  match t.kind with
  | .literal value => some value
  | _ => none

def keyword? (t : Token) : Option Keyword :=
  match t.kind with
  | .keyword k => some k
  | _ => none

def operator? (t : Token) : Option Operator :=
  match t.kind with
  | .operator o => some o
  | _ => none

def delimiter? (t : Token) : Option Delimiter :=
  match t.kind with
  | .delimiter d => some d
  | _ => none

end Token

end SqlScan
