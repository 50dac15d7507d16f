import SqlScan.Pass

/-!
# Reading step by step

A session holds settings and a cursor, and takes one step at a time. A step's reply depends on the
cursor's place alone and not on how it got there, so a session can be resumed anywhere.
-/

namespace SqlScan

inductive Step where
  | next
  | seek (offset : Nat)
  | position
  | settings
  | strict
  | batch
  | run
  deriving DecidableEq, Repr

inductive Reply where
  | item (item : Item)
  | moved (moved : Bool)
  | position
  | settings (settings : Settings)
  | tokens (answer : Except Fault (List Token))
  | stream (answer : Except Fault TokenStream)

/-- What can be seen of a step: its reply, what it logs, and the place that it leads to. -/
structure Outcome where
  reply : Reply
  log : List Event
  position : Nat

/-- A reader with its settings, somewhere in a source. -/
structure Session where
  settings : Settings
  cursor : Cursor
  deriving DecidableEq, Repr

namespace Session

def ofSource (settings : Settings) (source : List Char) : Session :=
  ⟨settings, .ofSource source⟩

def position (s : Session) : Nat := s.cursor.position

def moveTo (s : Session) (c : Cursor) : Session := { s with cursor := c }

/-- The reply to a step, what it logs, and the session after it. -/
def perform (s : Session) : Step → Reply × List Event × Session
  | .next =>
    let (item, c) := s.cursor.next
    (.item item, [], s.moveTo c)
  | .seek offset =>
    match s.cursor.seek? offset with
    | some c => (.moved true, [], s.moveTo c)
    | none => (.moved false, [], s)
  | .position => (.position, [], s)
  | .settings => (.settings s.settings, [], s)
  | .strict =>
    let p := s.cursor.strict
    (.tokens p.answer, p.log, s.moveTo p.cursor)
  | .batch =>
    let p := s.cursor.batch s.settings.limit
    (.stream (.ok p.answer), p.log, s.moveTo p.cursor)
  | .run =>
    let p := s.cursor.run s.settings
    (.stream p.answer, p.log, s.moveTo p.cursor)

/-- What can be seen of some steps, and the session after them. -/
def trace (s : Session) : List Step → List Outcome × Session
  | [] => ([], s)
  | step :: steps =>
    let (reply, log, next) := s.perform step
    let (outcomes, last) := next.trace steps
    (⟨reply, log, next.position⟩ :: outcomes, last)

end Session

end SqlScan
