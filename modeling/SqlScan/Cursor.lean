import SqlScan.Lexeme

/-!
# Reading from a place in a source

A cursor is a source, a mark in it, and the text ahead of the mark. Reading takes the first lexeme
of the text ahead and moves the mark over what the lexeme passed and covered; the lexeme's own
place is the mark between the two. A cursor can be put at any character boundary and at no other
offset.

A block is what one run reads: items up to the end of the source, or up to a fault that it may not
pass over. Everything that a run answers or logs is read off its block.
-/

namespace SqlScan

inductive Item where
  | token (token : Token)
  | fault (fault : Fault)
  deriving DecidableEq, Repr

namespace Item

def token? : Item → Option Token
  | .token t => some t
  | .fault _ => none

def fault? : Item → Option Fault
  | .token _ => none
  | .fault f => some f

/-- Whether the item is the token that stands for the end of the source. -/
def isEnd : Item → Bool
  | .token t => t.isEndOfFile
  | .fault _ => false

end Item

/-- The item that a lexeme is, between the marks before and after the text that it covers. -/
def Lexeme.item (x : Lexeme) (start stop : Mark) : Item :=
  match x.content with
  | .token kind => .token ⟨kind.textOf x.covered, kind, start.spanTo stop, start.location⟩
  | .fault cause => .fault ⟨cause, snippet x.covered, start.spanTo stop, start.location⟩

structure Cursor where
  source : List Char
  mark : Mark
  ahead : List Char
  deriving DecidableEq, Repr

namespace Cursor

def ofSource (source : List Char) : Cursor := ⟨source, .origin, source⟩

/-- The byte offset of the text ahead. -/
def position (c : Cursor) : Nat := c.mark.offset

/-- The same source from another offset, if that is a character boundary of it. -/
def seek? (c : Cursor) (offset : Nat) : Option Cursor :=
  (Text.cut? offset c.source).map fun (before, after) =>
    ⟨c.source, Mark.origin.after before, after⟩

/-- The next item, and the cursor after it. -/
def next (c : Cursor) : Item × Cursor :=
  let x := Lexeme.read c.ahead
  let start := c.mark.after x.passed
  let stop := start.after x.covered
  (x.item start stop, ⟨c.source, stop, x.rest⟩)

theorem length_ahead_next_lt {c : Cursor} (h : c.next.1.isEnd = false) :
    c.next.2.ahead.length < c.ahead.length := by
  apply Lexeme.length_rest_read_lt
  intro hcontent
  simp [next, Lexeme.item, hcontent, Item.isEnd, Token.isEndOfFile] at h

end Cursor

/-- What one run reads, and where it stopped. A full block ends with the fault that the run could
not pass over; any other ends with the end of the source. -/
structure Block where
  items : List Item
  full : Bool
  cursor : Cursor
  deriving DecidableEq, Repr

namespace Block

def cons (item : Item) (b : Block) : Block := { b with items := item :: b.items }

def tokens (b : Block) : List Token := b.items.filterMap Item.token?

def faults (b : Block) : List Fault := b.items.filterMap Item.fault?

end Block

namespace Cursor

/-- The block from here on that passes over at most `spare` faults, or over all of them. -/
def block (spare : Option Nat) (c : Cursor) : Block :=
  let step := c.next
  if h : step.1.isEnd then
    ⟨[step.1], false, step.2⟩
  else
    have : step.2.ahead.length < c.ahead.length :=
      length_ahead_next_lt (Bool.eq_false_iff.2 h)
    match step.1.fault?, spare with
    | none, _ => (block spare step.2).cons step.1
    | some _, none => (block none step.2).cons step.1
    | some _, some 0 => ⟨[step.1], true, step.2⟩
    | some _, some (n + 1) => (block (some n) step.2).cons step.1
termination_by c.ahead.length

end Cursor

end SqlScan
