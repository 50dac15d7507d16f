import SqlScan.Fault
import SqlScan.Settings.Basic

/-!
# Moving over a source

A scanner holds a whole source and two marks in it: the place that it has come to, and the place where
it began the token that it is at. It looks at the source through byte offsets alone, and an offset
that is no character boundary has no text behind it; nor can it count lines and columns without
end. So whatever a scanner does is partial: `none` is a scanner that broke down, or that never
stopped. A loop never stops if one of its rounds comes to no place further on.
-/

namespace SqlScan

structure Scanner where
  source : List Char
  settings : Settings
  /-- The place of the next character. -/
  mark : Mark
  /-- The place where the token began. -/
  start : Mark
  deriving DecidableEq, Repr

namespace Scanner

def ofSource (settings : Settings) (source : List Char) : Scanner :=
  ⟨source, settings, .origin, .origin⟩

/-- The byte offset that scanning has come to. -/
def position (s : Scanner) : Nat := s.mark.offset

/-! ### Looking -/

/-- The text from a byte offset on. -/
def textFrom (s : Scanner) (offset : Nat) : Option (List Char) :=
  (Text.cut? offset s.source).map Prod.snd

/-- The text from one byte offset to another. -/
def textBetween (s : Scanner) (start stop : Nat) : Option (List Char) :=
  Text.slice? start stop s.source

/-- The next character, which there is none of at the end of the source. -/
def peek (s : Scanner) : Option (Option Char) := (s.textFrom s.position).map List.head?

/-- The character after the next. -/
def peekNext (s : Scanner) : Option (Option Char) :=
  (s.textFrom s.position).map fun cs => cs.tail.head?

/-- The text of the token so far. -/
def taken (s : Scanner) : Option (List Char) := s.textBetween s.start.offset s.position

/-- The text between two offsets, cut to the length of a snippet. -/
def snippet (s : Scanner) (start stop : Nat) : Option String := do
  let text ← s.textBetween start stop
  if (text.drop snippetLimit).isEmpty then
    return String.ofList text
  else
    let (shown, _) ← Text.cut? (Text.size (text.take snippetLimit)) text
    return String.ofList (shown ++ ['.', '.', '.'])

/-- A fault from a mark up to the place that scanning has come to. -/
def faultFrom (s : Scanner) (cause : Cause) (opening : Mark) : Option Fault := do
  let shown ← s.snippet opening.offset s.position
  return ⟨cause, shown, opening.spanTo s.mark, opening.location⟩

/-! ### Moving -/

/-- Moves over the next character and tells it. -/
def advance (s : Scanner) : Option (Option Char × Scanner) := do
  match ← s.peek with
  | none => return (none, s)
  | some c => return (some c, { s with mark := ← s.mark.advance? c })

/-- Moves over the next character if it is the expected one. -/
def eat (expected : Char) (s : Scanner) : Option (Bool × Scanner) := do
  if (← s.peek) = some expected then
    let (_, s) ← s.advance
    return (true, s)
  else
    return (false, s)

/-- The number of bytes ahead. -/
def left (s : Scanner) : Nat := Text.size s.source - s.position

/-- The rest of a loop after a round that led from one scanner to another. -/
def goOn {α : Type} (s t : Scanner) (rest : t.left < s.left → Option α) : Option α :=
  if h : t.left < s.left then rest h else none

/-- Moves over all characters up to the first that is not wanted. -/
def eatWhile (wanted : Char → Bool) (s : Scanner) : Option Scanner := do
  match ← s.peek with
  | none => return s
  | some c =>
    if wanted c then
      let (_, t) ← s.advance
      s.goOn t fun _ => eatWhile wanted t
    else
      return s
termination_by s.left

/-- Moves on to a byte offset. -/
def advanceTo (offset : Nat) (s : Scanner) : Option Scanner := do
  if s.position < offset then
    let (_, t) ← s.advance
    s.goOn t fun _ => advanceTo offset t
  else
    return s
termination_by s.left

/-- Goes to a byte offset if it is a character boundary, and tells whether it is. -/
def seek (offset : Nat) (s : Scanner) : Option (Bool × Scanner) := do
  if (Text.cut? offset s.source).isSome then
    let mark := ⟨offset, ← Location.ofOffset? s.source offset⟩
    return (true, { s with mark, start := mark })
  else
    return (false, s)

end Scanner

end SqlScan
