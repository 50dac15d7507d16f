/-!
# Decimal numbers

A decimal is a whole number times a power of ten, which may be negative. It is what a numeral says
before it is rounded to a binary number, and what a binary number is written as.
-/

namespace SqlScan

/-- The number `coefficient * 10 ^ exponent`. -/
structure Decimal where
  coefficient : Nat
  exponent : Int
  deriving DecidableEq, Repr

namespace Decimal

def natOfDigits (digits : List Char) : Nat :=
  digits.foldl (fun n c => n * 10 + (c.toNat - '0'.toNat)) 0

/-- The numerator of the value over `denominator`. -/
def numerator (d : Decimal) : Nat := d.coefficient * Nat.pow 10 d.exponent.toNat

/-- The power of ten that the value is a fraction of. -/
def denominator (d : Decimal) : Nat := Nat.pow 10 (-d.exponent).toNat

/-- The digits without the zeros at their end, and the place of the point counted from before the
first of them. Zero is a single digit before the point. -/
def digits (d : Decimal) : List Char × Int :=
  if d.coefficient = 0 then
    (['0'], 1)
  else
    let all := Nat.toDigits 10 d.coefficient
    ((all.reverse.dropWhile (· = '0')).reverse, all.length + d.exponent)

/-- All places written out, with at least one digit on each side of the point. -/
def positional (d : Decimal) : List Char :=
  let (ds, point) := d.digits
  if point ≤ 0 then
    '0' :: '.' :: (List.replicate (-point).toNat '0' ++ ds)
  else
    let before := ds.take point.toNat
    let after := ds.drop point.toNat
    before ++ List.replicate (point.toNat - before.length) '0'
      ++ '.' :: (if after.isEmpty then ['0'] else after)

/-- A power of ten, with a plus sign in front if one is asked for and no minus sign stands there. -/
def power (plus : Bool) (exponent : Int) : List Char :=
  'e' :: ((if plus ∧ 0 ≤ exponent then ['+'] else []) ++ (toString exponent).toList)

/-- One digit before the point, any others after it, and the power of ten. -/
def scientific (plus : Bool) (d : Decimal) : List Char :=
  let (ds, point) := d.digits
  ds.take 1 ++ (if ds.length ≤ 1 then [] else '.' :: ds.drop 1) ++ power plus (point - 1)

end Decimal

end SqlScan
