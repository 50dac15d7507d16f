import SqlScan.Literal

/-!
# Numerals

A numeral is a run of digits, then a fraction if a point is followed by a digit, then an exponent
if an `e` follows. Only the exponent can be begun and not finished: it may lack its digits. A
numeral with neither fraction nor exponent is an integer and must fit 63 bits; any other is the
binary64 number nearest to it and must be finite. No sign belongs to a numeral.
-/

namespace SqlScan

/-- The exponent of a numeral: the letter that begins it, a sign if there is one, and its digits. -/
structure Exponent where
  letter : Char
  sign : Option Char
  digits : List Char
  deriving DecidableEq, Repr

namespace Exponent

def text (e : Exponent) : List Char := e.letter :: (e.sign.toList ++ e.digits)

def value (e : Exponent) : Int :=
  if e.sign = some '-' then -Decimal.natOfDigits e.digits else Decimal.natOfDigits e.digits

def read? : List Char → Option (Exponent × List Char)
  | [] => none
  | c :: cs =>
    if c = 'e' ∨ c = 'E' then
      match cs with
      | s :: ds =>
        if s = '+' ∨ s = '-' then
          some (⟨c, some s, ds.takeWhile Char.isDigit⟩, ds.dropWhile Char.isDigit)
        else
          some (⟨c, none, cs.takeWhile Char.isDigit⟩, cs.dropWhile Char.isDigit)
      | [] => some (⟨c, none, []⟩, [])
    else
      none

theorem text_append_of_read? {cs rest : List Char} {e : Exponent}
    (h : read? cs = some (e, rest)) : e.text ++ rest = cs := by
  unfold read? at h
  split at h
  · simp at h
  · split at h
    · split at h
      · split at h <;> simp at h <;> obtain ⟨rfl, rfl⟩ := h <;>
          simp [text, List.takeWhile_append_dropWhile]
      · simp at h
        obtain ⟨rfl, rfl⟩ := h
        rfl
    · simp at h

end Exponent

/-- A numeral in its parts. The fraction is empty if there is no point. -/
structure Numeral where
  whole : List Char
  fraction : List Char
  exponent : Option Exponent
  deriving DecidableEq, Repr

inductive NumericFault where
  | missingExponentDigits
  | integerOutOfRange
  | floatOutOfRange
  deriving DecidableEq, Repr

namespace Numeral

/-- The digits of the fraction that begins a text, and the text after it. -/
def fraction? : List Char → List Char × List Char
  | '.' :: c :: cs =>
    if c.isDigit then (c :: cs.takeWhile Char.isDigit, cs.dropWhile Char.isDigit)
    else ([], '.' :: c :: cs)
  | cs => ([], cs)

def fractionText (digits : List Char) : List Char :=
  if digits.isEmpty then [] else '.' :: digits

theorem fractionText_append (cs : List Char) :
    fractionText (fraction? cs).1 ++ (fraction? cs).2 = cs := by
  unfold fraction?
  split
  · split <;> simp [fractionText, List.takeWhile_append_dropWhile]
  · simp [fractionText]

def text (n : Numeral) : List Char :=
  n.whole ++ fractionText n.fraction ++ (n.exponent.map Exponent.text).getD []

/-- The numeral that begins a text, and the text after it. -/
def read (cs : List Char) : Numeral × List Char :=
  let whole := cs.takeWhile Char.isDigit
  let fraction := fraction? (cs.dropWhile Char.isDigit)
  match Exponent.read? fraction.2 with
  | some (exponent, rest) => (⟨whole, fraction.1, some exponent⟩, rest)
  | none => (⟨whole, fraction.1, none⟩, fraction.2)

theorem whole_read (cs : List Char) : (read cs).1.whole = cs.takeWhile Char.isDigit := by
  simp only [read]
  split <;> rfl

theorem text_append_of_read (cs : List Char) : (read cs).1.text ++ (read cs).2 = cs := by
  have hfraction := fractionText_append (cs.dropWhile Char.isDigit)
  cases h : Exponent.read? (fraction? (cs.dropWhile Char.isDigit)).2 with
  | none =>
    simp only [read, h, text, Option.map_none, Option.getD_none, List.append_nil,
      List.append_assoc]
    rw [hfraction, List.takeWhile_append_dropWhile]
  | some found =>
    have hexponent := Exponent.text_append_of_read? h
    simp only [read, h, text, Option.map_some, Option.getD_some, List.append_assoc]
    rw [hexponent, hfraction, List.takeWhile_append_dropWhile]

/-- The exact value that the digits say. -/
def decimal (n : Numeral) : Decimal where
  coefficient := Decimal.natOfDigits (n.whole ++ n.fraction)
  exponent := (n.exponent.map Exponent.value).getD 0 - n.fraction.length

def isInteger (n : Numeral) : Bool := n.fraction.isEmpty && n.exponent.isNone

def lacksDigits (n : Numeral) : Bool := n.exponent.any fun e => e.digits.isEmpty

/-- The least number too large for an integer: two to the power of 63. -/
def integerBound : Nat := 0x8000000000000000

def literal (n : Numeral) : Except NumericFault Literal :=
  if n.lacksDigits then
    .error .missingExponentDigits
  else if n.isInteger then
    let value := Decimal.natOfDigits n.whole
    if value < integerBound then .ok (.integer (Int64.ofNat value)) else .error .integerOutOfRange
  else
    match Binary64.ofDecimal? n.decimal with
    | some value => .ok (.float value)
    | none => .error .floatOutOfRange

end Numeral

namespace NumericFault

def message : NumericFault → String
  | .missingExponentDigits => "exponent has no digits"
  | .integerOutOfRange => "integer out of range"
  | .floatOutOfRange => "float out of range"

/-- The name a numeric fault has in exported faults. -/
def label : NumericFault → String
  | .missingExponentDigits => "MissingExponentDigits"
  | .integerOutOfRange => "IntegerOutOfRange"
  | .floatOutOfRange => "FloatOutOfRange"

def ofLabel? (name : String) : Option NumericFault :=
  [missingExponentDigits, integerOutOfRange, floatOutOfRange].find? fun f => f.label == name

end NumericFault

end SqlScan
