import SqlScan.Bytes
import SqlScan.Scanner.Next
import SqlScan.Session

/-!
# Passes of a scanner

The two passes are two loops: one stops at the first fault, the other counts faults up to its limit
and closes its tokens itself when the limit stops it. A source of bytes is scanned if it is a text. A
scanner takes the steps that a session takes.
-/

namespace SqlScan

namespace Scanner

/-- Scans tokens up to the end of the source, or to the first fault. -/
def strictLoop (tokens : List Token) (log : List Event) (s : Scanner) :
    Option (Except Fault (List Token) × List Event × Scanner) := do
  match ← s.next with
  | (.fault fault, t) => return (.error fault, log ++ [.aborted fault], t)
  | (.token token, t) =>
    let tokens := tokens ++ [token]
    let log := log ++ [.readToken token]
    if token.isEndOfFile then
      return (.ok tokens, log ++ [.finished tokens.length], t)
    else
      s.goOn t fun _ => strictLoop tokens log t
termination_by s.left

def strict (s : Scanner) : Option (Except Fault (List Token) × List Event × Scanner) :=
  s.strictLoop [] [.started .failFast (Text.size s.source)]

/-- Whether so many faults are as many as the settings allow. -/
def limited (s : Scanner) (faults : List Fault) : Bool :=
  s.settings.limit.any fun limit => limit.count ≤ faults.length

/-- Scans tokens and faults up to the end of the source, or to the fault that reaches the limit. -/
def batchLoop (tokens : List Token) (faults : List Fault) (log : List Event) (s : Scanner) :
    Option (TokenStream × List Event × Scanner) := do
  match ← s.next with
  | (.token token, t) =>
    let tokens := tokens ++ [token]
    let log := log ++ [.readToken token]
    if token.isEndOfFile then
      return (⟨tokens, faults⟩, log ++ [.finishedBatch tokens.length faults.length], t)
    else
      s.goOn t fun _ => batchLoop tokens faults log t
  | (.fault fault, t) =>
    let faults := faults ++ [fault]
    let log := log ++ [.recovered fault t.position]
    if t.limited faults then
      let tokens := tokens ++ [.endOfFile (t.mark.spanTo t.mark) t.mark.location]
      return (⟨tokens, faults⟩,
        log ++ [.limitReached faults.length, .finishedBatch tokens.length faults.length], t)
    else
      s.goOn t fun _ => batchLoop tokens faults log t
termination_by s.left

def batch (s : Scanner) : Option (TokenStream × List Event × Scanner) :=
  s.batchLoop [] [] [.started .batch (Text.size s.source)]

def run (s : Scanner) : Option (Except Fault TokenStream × List Event × Scanner) := do
  match s.settings.mode with
  | .failFast =>
    let (answer, log, s) ← s.strict
    return (answer.map fun tokens => ⟨tokens, []⟩, log, s)
  | .batch =>
    let (stream, log, s) ← s.batch
    return (.ok stream, log, s)

/-! ### Whole sources -/

/-- Scans a whole source; the answer and the log. -/
def tokenize (settings : Settings) (source : List Char) :
    Option (Except Fault TokenStream × List Event) := do
  let (answer, log, _) ← (ofSource settings source).run
  return (answer, log)

/-- The fault of bytes that are no text, at the place that counting over the text before them leads
to. -/
def faultOfIllFormed (i : Text.Utf8.IllFormed) : Option Fault := do
  let start := Text.size i.before
  let location ← Location.ofOffset? i.before start
  return ⟨.invalidEncoding, byteSnippets i.bytes, ⟨start, start + i.bytes.length⟩, location⟩

/-- Scans a whole source of bytes; the answer and the log. -/
def tokenizeBytes (settings : Settings) (bytes : List UInt8) :
    Option (Except Fault TokenStream × List Event) :=
  match Text.Utf8.decode bytes with
  | .ok source => tokenize settings source
  | .error i => (faultOfIllFormed i).map (rejection settings)

/-! ### Step by step -/

/-- The reply to a step, what it logs, and the scanner after it. -/
def perform (s : Scanner) : Step → Option (Reply × List Event × Scanner)
  | .next => do
    let (item, s) ← s.next
    return (.item item, [], s)
  | .seek offset => do
    let (moved, s) ← s.seek offset
    return (.moved moved, [], s)
  | .position => some (.position, [], s)
  | .settings => some (.settings s.settings, [], s)
  | .strict => do
    let (answer, log, s) ← s.strict
    return (.tokens answer, log, s)
  | .batch => do
    let (stream, log, s) ← s.batch
    return (.stream (.ok stream), log, s)
  | .run => do
    let (answer, log, s) ← s.run
    return (.stream answer, log, s)

/-- What can be seen of some steps, and the scanner after them. -/
def trace (s : Scanner) : List Step → Option (List Outcome × Scanner)
  | [] => some ([], s)
  | step :: steps => do
    let (reply, log, s) ← s.perform step
    let position := s.position
    let (outcomes, s) ← s.trace steps
    return (⟨reply, log, position⟩ :: outcomes, s)

end Scanner

end SqlScan
