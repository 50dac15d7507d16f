import SqlScan.Numeral
import SqlScan.Position
import SqlScan.Text.Shown

/-!
# Faults

A fault says why a part of the source is no token: the cause, the place, and a snippet of the part
itself. A snippet is cut to a readable length, and a character is shown between quotes, so that the
message about one fault stays readable whatever the source holds.
-/

namespace SqlScan

inductive Cause where
  | unterminatedString
  | unexpectedCharacter (ch : Char)
  | malformedNumber (reason : NumericFault)
  | invalidEncoding
  | unterminatedComment
  deriving DecidableEq, Repr

/-- The name a cause has in exported faults. -/
def Cause.label : Cause → String
  | .unterminatedString => "UnterminatedString"
  | .unexpectedCharacter _ => "UnexpectedCharacter"
  | .malformedNumber _ => "MalformedNumericLiteral"
  | .invalidEncoding => "InvalidEncoding"
  | .unterminatedComment => "UnterminatedComment"

/-- The most characters of the source that a snippet shows. -/
def snippetLimit : Nat := 40

def snippet (part : List Char) : String :=
  if (part.drop snippetLimit).isEmpty then String.ofList part
  else String.ofList (part.take snippetLimit ++ ['.', '.', '.'])

structure Fault where
  cause : Cause
  snippet : String
  span : Span
  location : Location
  deriving DecidableEq, Repr

namespace Fault

def message (f : Fault) : String :=
  let place := f.location.display
  match f.cause with
  | .unterminatedString => s!"unterminated string literal at {place}: {f.snippet}"
  | .unexpectedCharacter ch => s!"unexpected character {Text.showChar ch} at {place}"
  | .malformedNumber reason =>
    s!"malformed numeric literal `{f.snippet}` at {place}: {reason.message}"
  | .invalidEncoding => s!"invalid UTF-8 sequence {f.snippet} at {place}"
  | .unterminatedComment => s!"unterminated block comment at {place}"

end Fault

structure FaultReport where
  faults : List Fault
  deriving DecidableEq, Repr

/-- A count, and a line for each fault. -/
def FaultReport.message (r : FaultReport) : String :=
  let lines := r.faults.map fun f => "  - " ++ f.message
  s!"{r.faults.length} lex error(s):\n" ++ "\n".intercalate lines

end SqlScan
