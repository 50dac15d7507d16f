import SqlScan.Numeral
import SqlScan.Rendering
import SqlScan.Settings.Basic

/-!
# Settings from a document

A document gives the settings by name in a mapping or by place in a sequence, and may leave any of
them out. Nothing else may stand there: what has another shape is refused, with a word for what was
found and what was expected. Names are met in their order and the first fault is the answer.
-/

namespace SqlScan

/-- The value of a document. The names of a mapping are distinct and in order. -/
inductive Document where
  | null
  | boolean (value : Bool)
  | integer (value : Int)
  | float (value : Binary64)
  | text (value : String)
  | sequence (items : List Document)
  | mapping (fields : List (String × Document))

namespace Document

/-- The least number too large for an integer: two to the power of 64. -/
def unsignedBound : Nat := 0x10000000000000000

/-- The size of the least integer: two to the power of 63. -/
def signedBound : Nat := 0x8000000000000000

/-- A number as a document writes it, from its numeral and whether a minus sign stands before it.
What is written as an integer is one if it fits 64 bits, with or without a sign; negative zero does
not. Every other number is a float, if it is not too large for one. -/
def ofNumeral? (negative : Bool) (n : Numeral) : Option Document :=
  let whole := Decimal.natOfDigits n.whole
  if n.isInteger ∧ !negative ∧ whole < unsignedBound then
    some (.integer whole)
  else if n.isInteger ∧ negative ∧ 0 < whole ∧ whole ≤ signedBound then
    some (.integer (-whole))
  else
    (Binary64.ofDecimal? n.decimal).map fun x => .float { x with negative }

/-- What a value is called where it is not expected. -/
def described : Document → String
  | .null => "null"
  | .boolean value => s!"boolean `{value}`"
  | .integer value => s!"integer `{value}`"
  | .float value => s!"floating point `{value.writtenIn .document}`"
  | .text value => "string " ++ Text.showText value
  | .sequence _ => "sequence"
  | .mapping _ => "map"

end Document

/-- What can stand at a place of a document. -/
inductive Expected where
  | settings
  | mode
  | unit
  | limit
  deriving DecidableEq, Repr

def Expected.described : Expected → String
  | .settings => "struct LexerConfig"
  | .mode => "string or map"
  | .unit => "unit"
  | .limit => "a nonzero usize"

inductive DocumentFault where
  | unexpected (found : Document) (expected : Expected)
  | limitNotPositive (n : Int)
  | unknownField (name : String)
  | unknownMode (name : String)
  | notOneField
  | tooLong (length : Nat)

def DocumentFault.message : DocumentFault → String
  | .unexpected found expected =>
    s!"invalid type: {found.described}, expected {expected.described}"
  | .limitNotPositive n => s!"invalid value: integer `{n}`, expected {Expected.limit.described}"
  | .unknownField name => s!"unknown field `{name}`, expected `mode` or `max-errors`"
  | .unknownMode name => s!"unknown variant `{name}`, expected `fail-fast` or `batch`"
  | .notOneField => "invalid value: map, expected map with a single key"
  | .tooLong length => s!"invalid length {length}, expected fewer elements in array"

namespace Mode

/-- The mode of a given name, which is matched exactly. -/
def ofName (name : String) : Except DocumentFault Mode :=
  if name = failFast.label then .ok failFast
  else if name = batch.label then .ok batch
  else .error (.unknownMode name)

/-- The mode that a document gives: its name, or a mapping from its name to nothing. -/
def ofDocument : Document → Except DocumentFault Mode
  | .text name => ofName name
  | .mapping [(name, value)] => do
    let mode ← ofName name
    match value with
    | .null => .ok mode
    | other => .error (.unexpected other .unit)
  | .mapping _ => .error .notOneField
  | other => .error (.unexpected other .mode)

end Mode

/-- The limit that a document gives; none if it gives nothing. -/
def FaultLimit.ofDocument : Document → Except DocumentFault (Option FaultLimit)
  | .null => .ok none
  | .integer n =>
    match ofNat? n.toNat with
    | some limit => .ok (some limit)
    | none => .error (.limitNotPositive n)
  | other => .error (.unexpected other .limit)

namespace Settings

/-- The settings with one of them given by name. -/
def withField (s : Settings) (name : String) (value : Document) :
    Except DocumentFault Settings :=
  if name = "mode" then
    (Mode.ofDocument value).map fun mode => { s with mode }
  else if name = "max-errors" then
    (FaultLimit.ofDocument value).map fun limit => { s with limit }
  else
    .error (.unknownField name)

def ofDocument : Document → Except DocumentFault Settings
  | .mapping fields => fields.foldlM (fun s field => s.withField field.1 field.2) default
  | .sequence items => do
    let named := ["mode", "max-errors"].zip items
    let settings ← named.foldlM (fun s field => s.withField field.1 field.2) default
    if named.length < items.length then .error (.tooLong items.length) else .ok settings
  | other => .error (.unexpected other .settings)

end Settings

end SqlScan
