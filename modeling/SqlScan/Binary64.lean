import SqlScan.Decimal

/-!
# Binary64 numbers and decimals

A number is a sign and a magnitude, which is the word of its bits below the sign: an exponent field
above 52 fraction bits. Magnitudes are ordered as their values are. Every finite value is a whole
number of least units, each 2 ^ -1074, so no rounding is hidden in reading a value off its bits.

A positive decimal is a fraction of whole numbers, here counted in least units. Its integer part
has some number of bits; the bits beyond the first 53 are the ones a binary64 number cannot keep,
so the fraction is divided by their weight and rounded once, a half going to the even neighbour.
Adding one exponent step for each dropped bit gives the magnitude: a rounding up to the next power
of two carries into the exponent by itself, and one past the last finite value lands on infinity.

A decimal whose exponent alone puts it beyond either end is settled without computing its fraction.
-/

namespace SqlScan

/-- The bit above every magnitude. -/
def Binary64.signBit : Nat := 0x8000000000000000

/-- A binary64 number, not-a-numbers included. -/
structure Binary64 where
  negative : Bool
  magnitude : Nat
  magnitude_lt : magnitude < Binary64.signBit
  deriving DecidableEq, Repr

namespace Binary64

/-- One step of the exponent field in a magnitude; the fractions are the numbers below it. -/
def exponentStep : Nat := 0x10000000000000

/-- The exponent of two below which there is no unit. -/
def unitPlaces : Nat := 1074

def unitsInOne : Nat := Nat.pow 2 unitPlaces

/-- The magnitude of infinity; the ones above it are not numbers. -/
def infinity : Nat := 0x7FF * exponentStep

def isFinite (x : Binary64) : Bool := x.magnitude < infinity

def isNaN (x : Binary64) : Bool := infinity < x.magnitude

def ofBits (word : UInt64) : Binary64 where
  negative := signBit ≤ word.toNat
  magnitude := word.toNat % signBit
  magnitude_lt := Nat.mod_lt _ (by decide)

/-- The value of a finite magnitude in least units. -/
def units (magnitude : Nat) : Nat :=
  let exponent := magnitude / exponentStep
  let fraction := magnitude % exponentStep
  if exponent = 0 then fraction else (exponentStep + fraction) * Nat.pow 2 (exponent - 1)

end Binary64

/-! ### Rounding a quotient

A quotient lies between two neighbouring whole numbers, and the nearer one is taken. Only a quotient
halfway between them leaves a choice, and a tie rule makes it. Everything here compares whole
numbers, so nothing is rounded before the one rounding that is asked for. -/

/-- Which neighbour a quotient halfway between two whole numbers goes to. -/
inductive Tie where
  | upper
  | even
  deriving DecidableEq, Repr

namespace Tie

/-- Whether a quotient goes to the neighbour above it. -/
def takesUpper (tie : Tie) (num den : Nat) : Bool :=
  let twice := 2 * (num % den)
  if twice = den then
    match tie with
    | upper => true
    | even => num / den % 2 = 1
  else
    den < twice

def round (tie : Tie) (num den : Nat) : Nat :=
  if tie.takesUpper num den then num / den + 1 else num / den

end Tie

/-! ### Nearest numbers -/

namespace Binary64

/-- The magnitude nearest to a fraction of least units. It is at least `infinity` if the value is
too large. -/
def ofUnits (num den : Nat) : Nat :=
  let dropped := (num / den).log2 - 52
  dropped * exponentStep + Tie.even.round num (den * Nat.pow 2 dropped)

def nearest (d : Decimal) : Nat :=
  if d.coefficient = 0 then 0
  else if 400 < d.exponent then infinity
  else if d.exponent + d.coefficient.log2 < -400 then 0
  else ofUnits (d.numerator * unitsInOne) d.denominator

theorem infinity_lt : infinity < signBit := by decide

/-- The positive number nearest to a decimal, if there is a finite one. -/
def ofDecimal? (d : Decimal) : Option Binary64 :=
  if h : nearest d < infinity then
    some ⟨false, nearest d, Nat.lt_trans h infinity_lt⟩
  else
    none

end Binary64

/-! ### Shortest decimals

The decimals that read back as a number are those in an interval around its value. For one digit,
two digits and so on, the value lies between two neighbours on the grid of decimals with that many
digits; if any decimal of the grid is in the interval then one of these two is. The first grid with
such a decimal gives the fewest digits. Of two, the nearer is taken, and a tie rule decides if
neither is nearer. Seventeen digits are always enough; the value written in full stands behind them,
so that whatever is chosen reads back. -/

namespace Binary64

/-- The value of a magnitude over a power of ten, as a numerator and a denominator. -/
def scaled (magnitude : Nat) (exponent : Int) : Nat × Nat :=
  (units magnitude * Nat.pow 10 (-exponent).toNat, unitsInOne * Nat.pow 10 exponent.toNat)

/-- The number of places before the point of a magnitude that is not zero: the value is below ten
to that power, and not below a tenth of it. -/
def places (magnitude : Nat) : Int :=
  let (num, den) := scaled magnitude (-400)
  (Nat.toDigits 10 (num / den)).length - 400

/-- The decimal with a given exponent that reads back as the magnitude: of the value's two
neighbours the nearer one that does. -/
def onGrid? (tie : Tie) (magnitude : Nat) (exponent : Int) : Option Decimal :=
  let (num, den) := scaled magnitude exponent
  let lower : Decimal := ⟨num / den, exponent⟩
  let upper : Decimal := ⟨num / den + 1, exponent⟩
  let nearer := if tie.takesUpper num den then [upper, lower] else [lower, upper]
  nearer.find? fun d => nearest d == magnitude

def exactly (magnitude : Nat) : Decimal :=
  ⟨units magnitude * Nat.pow 5 unitPlaces, -unitPlaces⟩

/-- The shortest decimal that reads back as a finite magnitude. -/
def shortest (tie : Tie) (magnitude : Nat) : Decimal :=
  if magnitude = 0 then
    ⟨0, 0⟩
  else
    let point := places magnitude
    let found := (List.range 17).findSome? fun n => onGrid? tie magnitude (point - (n + 1 : Nat))
    found.getD (exactly magnitude)

end Binary64

end SqlScan
