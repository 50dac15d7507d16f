import SqlScan.Pass
import SqlScan.Text.Utf8

/-!
# Sources given as bytes

Bytes are read as UTF-8 before anything else. If they are no text, no token is read: the one fault
covers the bytes that could not be read and is placed after the text before them. A batch pass has
the fault in a stream with nothing else but the end-of-file token.
-/

namespace SqlScan

/-- A byte as an escape with two hexadecimal digits. -/
def byteSnippet (b : UInt8) : List Char :=
  let digit (n : Nat) : Char := (Nat.digitChar n).toUpper
  ['\\', 'x', digit (b.toNat / 16), digit (b.toNat % 16)]

def byteSnippets (bytes : List UInt8) : String := String.ofList (bytes.flatMap byteSnippet)

/-- The fault of bytes that are no text. -/
def Fault.ofIllFormed (i : Text.Utf8.IllFormed) : Fault :=
  let start := Mark.origin.after i.before
  ⟨.invalidEncoding, byteSnippets i.bytes, ⟨start.offset, start.offset + i.bytes.length⟩,
    start.location⟩

/-- The answer and the log where a fault keeps a source from being read at all. -/
def rejection (s : Settings) (fault : Fault) : Except Fault TokenStream × List Event :=
  let answer :=
    match s.mode with
    | .failFast => .error fault
    | .batch => .ok ⟨[.endOfFile .origin .origin], [fault]⟩
  (answer, [.rejected fault])

/-- Reads a whole source of bytes; the answer and the log. -/
def tokenizeBytes (s : Settings) (bytes : List UInt8) :
    Except Fault TokenStream × List Event :=
  match Text.Utf8.decode bytes with
  | .ok source =>
    let p := tokenize s source
    (p.answer, p.log)
  | .error i => rejection s (.ofIllFormed i)

end SqlScan
