import SqlScan.Cursor
import SqlScan.Log

/-!
# Passes over a source

A strict pass may not pass over any fault, so it answers with the first one or with tokens alone. A
batch pass goes over all faults, or over all but the last that its limit allows; when the limit
stops it, an end-of-file token where it stopped closes its tokens. Both read the same items from
the same place; they differ in how far they read and in what they make of the block.
-/

namespace SqlScan

/-- Tokens up to an end-of-file token, and the faults met on the way. -/
structure TokenStream where
  tokens : List Token
  faults : List Fault
  deriving DecidableEq, Repr

/-- The tokens if there were no faults, and otherwise a report of all of them. -/
def TokenStream.result (s : TokenStream) : Except FaultReport (List Token) :=
  if s.faults.isEmpty then .ok s.tokens else .error ⟨s.faults⟩

/-- What a pass answers, what it logs, and where it leaves the cursor. -/
structure Pass (α : Type) where
  answer : α
  log : List Event
  cursor : Cursor

namespace Block

/-- The tokens of a strict pass, or the fault that stopped it. -/
def strictAnswer (b : Block) : Except Fault (List Token) :=
  match b.faults.head? with
  | some fault => .error fault
  | none => .ok b.tokens

def strictEvent : Item → Event
  | .token t => .readToken t
  | .fault f => .aborted f

def strictLog (b : Block) : List Event :=
  .started .failFast (Text.size b.cursor.source) :: b.items.map strictEvent
    ++ (if b.faults.isEmpty then [.finished b.tokens.length] else [])

/-- The stream of a batch pass. A full block has no end of the source to close its tokens. -/
def stream (b : Block) : TokenStream where
  tokens := b.tokens ++
    (if b.full then [.endOfFile (b.cursor.mark.spanTo b.cursor.mark) b.cursor.mark.location] else [])
  faults := b.faults

def batchEvent : Item → Event
  | .token t => .readToken t
  | .fault f => .recovered f f.span.stop

def batchLog (b : Block) : List Event :=
  .started .batch (Text.size b.cursor.source) :: b.items.map batchEvent
    ++ (if b.full then [.limitReached b.faults.length] else [])
    ++ [.finishedBatch b.stream.tokens.length b.stream.faults.length]

end Block

namespace Cursor

/-- Reads to the first fault or the end. -/
def strict (c : Cursor) : Pass (Except Fault (List Token)) :=
  let b := c.block (some 0)
  ⟨b.strictAnswer, b.strictLog, b.cursor⟩

/-- Reads to the fault that reaches the limit, or to the end. -/
def batch (limit : Option FaultLimit) (c : Cursor) : Pass TokenStream :=
  let b := c.block (limit.map fun l => l.count - 1)
  ⟨b.stream, b.batchLog, b.cursor⟩

def run (s : Settings) (c : Cursor) : Pass (Except Fault TokenStream) :=
  match s.mode with
  | .failFast =>
    let p := c.strict
    ⟨p.answer.map fun tokens => ⟨tokens, []⟩, p.log, p.cursor⟩
  | .batch =>
    let p := c.batch s.limit
    ⟨.ok p.answer, p.log, p.cursor⟩

end Cursor

def tokenize (s : Settings) (source : List Char) : Pass (Except Fault TokenStream) :=
  (Cursor.ofSource source).run s

end SqlScan
