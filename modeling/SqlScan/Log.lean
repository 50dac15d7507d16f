import SqlScan.Fault
import SqlScan.Settings.Basic
import SqlScan.Token

/-!
# The log

What a reader does is told in events. An event is a fact with its data; its level, its message and
its fields are ways of writing it down.
-/

namespace SqlScan

inductive Level where
  | trace | debug | warn
  deriving DecidableEq, Repr

def Level.label : Level → String
  | .trace => "TRACE"
  | .debug => "DEBUG"
  | .warn => "WARN"

/-- What a reader has done, or found in its settings. -/
inductive Event where
  /-- A pass began; the size is that of the whole source. -/
  | started (mode : Mode) (size : Nat)
  | readToken (token : Token)
  /-- A pass stopped at its first fault. -/
  | aborted (fault : Fault)
  /-- A pass recorded a fault and reads on from a byte offset. -/
  | recovered (fault : Fault) (resumeAt : Nat)
  | limitReached (faults : Nat)
  /-- A pass that stops at faults met none. -/
  | finished (tokens : Nat)
  | finishedBatch (tokens faults : Nat)
  /-- The bytes of a source were no text. -/
  | rejected (fault : Fault)
  | unknownMode (variableName value : String)
  | invalidLimit (variableName value : String) (fault : LimitFault)
  deriving DecidableEq, Repr

namespace Event

def level : Event → Level
  | .readToken _ => .trace
  | .unknownMode _ _ | .invalidLimit _ _ _ => .warn
  | _ => .debug

def message : Event → String
  | .started _ _ => "Tokenizing"
  | .readToken _ => "Token"
  | .aborted _ => "Tokenizing aborted"
  | .recovered _ _ => "Recovered from lex error"
  | .limitReached _ => "Error limit reached"
  | .finished _ | .finishedBatch _ _ => "Tokenized"
  | .rejected _ => "Rejected input"
  | .unknownMode _ _ => "Unrecognised lex mode, using fail-fast"
  | .invalidLimit _ _ _ => "Invalid error limit, ignoring"

/-- The data of an event, each with its name. -/
def fields : Event → List (String × String)
  | .started mode size => [("mode", mode.label), ("bytes", toString size)]
  | .readToken t =>
    [("kind", t.kind.tokenClass.display), ("text", t.text), ("span", t.span.display)]
  | .aborted f => [("error", f.message)]
  | .recovered f resumeAt => [("error", f.message), ("resume_at", toString resumeAt)]
  | .limitReached faults => [("errors", toString faults)]
  | .finished tokens => [("tokens", toString tokens)]
  | .finishedBatch tokens faults => [("tokens", toString tokens), ("errors", toString faults)]
  | .rejected f => [("error", f.message)]
  | .unknownMode variableName value => [("var", variableName), ("value", value)]
  | .invalidLimit variableName value fault =>
    [("var", variableName), ("value", value), ("error", fault.message)]

end Event

end SqlScan
