import SqlScan.Text.Classes

/-!
# Settings

A pass over a source either stops at the first fault or records faults and reads on. In the second
case a limit may end it early. A limit is never zero: asking for none means that there is none.

As a text a limit is written in decimal digits, with a plus sign in front if one likes, and must fit
64 bits. The digits are read from the left, so of a character that is no digit and a number grown too
large the one that comes first is reported.
-/

namespace SqlScan

/-- How a pass meets a fault: it stops, or it records the fault and reads on. -/
inductive Mode where
  | failFast
  | batch
  deriving DecidableEq, Repr

namespace Mode

def label : Mode → String
  | .failFast => "fail-fast"
  | .batch => "batch"

/-- The mode that a setting text names. Blanks around it and the case of ASCII letters do not
count. -/
def ofText? (text : List Char) : Option Mode :=
  match String.ofList ((Text.trim text).map Char.toLower) with
  | "fail-fast" | "fail_fast" | "failfast" => some .failFast
  | "batch" => some .batch
  | _ => none

end Mode

/-- The number of faults after which a batch pass ends. -/
structure FaultLimit where
  count : Nat
  count_pos : 0 < count
  deriving DecidableEq, Repr

/-- The limit of a given number, which zero is not. -/
def FaultLimit.ofNat? (n : Nat) : Option FaultLimit :=
  if h : 0 < n then some ⟨n, h⟩ else none

/-- What a reader is told before it starts. -/
structure Settings where
  mode : Mode
  limit : Option FaultLimit
  deriving DecidableEq, Repr

namespace Settings

def failFast : Settings := ⟨.failFast, none⟩

def batch : Settings := ⟨.batch, none⟩

/-- The settings used where nothing is said. -/
def default : Settings := failFast

/-- The settings with another limit; zero takes the limit away. -/
def withLimit (s : Settings) (n : Nat) : Settings := { s with limit := FaultLimit.ofNat? n }

end Settings

/-! ### Limits as text -/

inductive LimitFault where
  | empty
  | invalidDigit
  | tooLarge
  | zero
  deriving DecidableEq, Repr

def LimitFault.message : LimitFault → String
  | .empty => "cannot parse integer from empty string"
  | .invalidDigit => "invalid digit found in string"
  | .tooLarge => "number too large to fit in target type"
  | .zero => "number would be zero for non-zero type"

namespace FaultLimit

/-- The least number that does not fit: two to the power of 64. -/
def numberBound : Nat := 0x10000000000000000

/-- Reads on from the number that the digits so far have given. -/
def readDigits : Nat → List Char → Except LimitFault Nat
  | n, [] => .ok n
  | n, c :: cs =>
    if c.isDigit then
      let m := n * 10 + (c.toNat - '0'.toNat)
      if m < numberBound then readDigits m cs else .error .tooLarge
    else
      .error .invalidDigit

/-- The number that a text says, with or without a plus sign. A sign alone is no digit. -/
def readNumber : List Char → Except LimitFault Nat
  | [] => .error .empty
  | '+' :: c :: cs => readDigits 0 (c :: cs)
  | cs => readDigits 0 cs

/-- The limit that a setting text says. Blanks around it do not count. -/
def ofText (text : List Char) : Except LimitFault FaultLimit :=
  match readNumber (Text.trim text) with
  | .error fault => .error fault
  | .ok n =>
    match ofNat? n with
    | some limit => .ok limit
    | none => .error .zero

end FaultLimit

end SqlScan
