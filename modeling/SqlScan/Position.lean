import SqlScan.Text.Offset

/-!
# Places in a source text

A span counts bytes from the start of the source; a location counts lines, and characters within
its line. Both are read off the text before a place, so a `Mark` carries them together and moves
over one character at a time: a mark that has moved over a text is at the offset of its size, at
the location that its newlines and last line give.

A scanner counts lines and columns in 32 bits. Counting further is no location at all, so counting is
partial as well, and a text can be counted if no step on the way over it fails.
-/

namespace SqlScan

/-- A range of bytes, from `start` up to but not including `stop`. -/
structure Span where
  start : Nat
  stop : Nat
  deriving DecidableEq, Repr

namespace Span

def origin : Span := ⟨0, 0⟩

/-- The number of bytes covered; a span out of order covers none. -/
def length (s : Span) : Nat := s.stop - s.start

def isEmpty (s : Span) : Bool := s.stop ≤ s.start

/-- The least span that covers both. -/
def merge (s t : Span) : Span := ⟨min s.start t.start, max s.stop t.stop⟩

def display (s : Span) : String := s!"{s.start}..{s.stop}"

/-- The covered text, if the span is in order, within the source and on character boundaries. -/
def slice? (s : Span) (source : List Char) : Option (List Char) :=
  Text.slice? s.start s.stop source

end Span

/-- A place for people: line and column, both from one; a column is one character. -/
structure Location where
  line : Nat
  column : Nat
  deriving DecidableEq, Repr

namespace Location

def origin : Location := ⟨1, 1⟩

/-- The place after a character: a newline begins the next line, any other is one column. -/
def advance (l : Location) (c : Char) : Location :=
  if c = '\n' then ⟨l.line + 1, 1⟩ else ⟨l.line, l.column + 1⟩

def after (l : Location) (cs : List Char) : Location := cs.foldl advance l

/-- The place after each character of a text in turn. -/
def trail (l : Location) : List Char → List Location
  | [] => []
  | c :: cs => l.advance c :: trail (l.advance c) cs

/-- The place of a byte offset. One inside a character is placed after that character, and one
past the end at the end. -/
def ofOffset (source : List Char) (offset : Nat) : Location :=
  origin.after (Text.begunBefore offset source)

/-- Lines first, then columns. -/
def order (l m : Location) : Ordering :=
  (compare l.line m.line).then (compare l.column m.column)

def display (l : Location) : String := s!"{l.line}:{l.column}"

/-! ### Counting in 32 bits -/

/-- The least line or column that is not counted: two to the power of 32. -/
def bound : Nat := 0x100000000

def fits (l : Location) : Bool := l.line < bound && l.column < bound

def advance? (l : Location) (c : Char) : Option Location :=
  if (l.advance c).fits then some (l.advance c) else none

/-- The place of a byte offset, if the text before it can be counted. -/
def ofOffset? (source : List Char) (offset : Nat) : Option Location :=
  (Text.begunBefore offset source).foldlM advance? origin

/-- Whether a text can be counted from a location on. -/
def counts (l : Location) (cs : List Char) : Bool := (l.trail cs).all fits

end Location

/-- A place in a source, both as a byte offset and as a location. -/
structure Mark where
  offset : Nat
  location : Location
  deriving DecidableEq, Repr

namespace Mark

def origin : Mark := ⟨0, .origin⟩

def advance (m : Mark) (c : Char) : Mark := ⟨m.offset + c.utf8Size, m.location.advance c⟩

def advance? (m : Mark) (c : Char) : Option Mark :=
  (m.location.advance? c).map fun l => ⟨m.offset + c.utf8Size, l⟩

def after (m : Mark) (cs : List Char) : Mark := cs.foldl advance m

@[simp] theorem after_nil (m : Mark) : m.after [] = m := rfl

@[simp] theorem after_cons (m : Mark) (c : Char) (cs : List Char) :
    m.after (c :: cs) = (m.advance c).after cs := rfl

theorem after_append (m : Mark) (as bs : List Char) :
    m.after (as ++ bs) = (m.after as).after bs := List.foldl_append

theorem offset_after (m : Mark) (cs : List Char) :
    (m.after cs).offset = m.offset + Text.size cs := by
  induction cs generalizing m with
  | nil => rfl
  | cons c cs ih => simp [ih, advance, Nat.add_assoc]

theorem location_after (m : Mark) (cs : List Char) :
    (m.after cs).location = m.location.after cs := by
  induction cs generalizing m with
  | nil => rfl
  | cons c cs ih => exact ih (m.advance c)

def spanTo (start stop : Mark) : Span := ⟨start.offset, stop.offset⟩

end Mark

end SqlScan
