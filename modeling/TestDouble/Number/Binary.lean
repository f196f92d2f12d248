/-!
# Binary floating-point numbers

The numbers of the two IEEE 754 formats as exact values: a sign, a natural significand and a power of
two. Every operation is exact arithmetic followed by one rounding to the nearest number of the format, a
tie going to the even significand.
-/

namespace TestDouble

/-- A binary format: the width of the significand, and the exponents of its lowest bit. -/
structure BinaryFormat where
  precision : Nat
  minExponent : Int
  maxExponent : Int

namespace BinaryFormat

def binary32 : BinaryFormat := ⟨24, -149, 104⟩

def binary64 : BinaryFormat := ⟨53, -1074, 971⟩

/-- The significands of a format are below this. -/
def limit (format : BinaryFormat) : Nat := Nat.pow 2 format.precision

end BinaryFormat

/-- A floating-point number; `finite` stands for `± significand · 2 ^ exponent`. -/
inductive BinaryFloat where
  | nan
  | infinite (negative : Bool)
  | finite (negative : Bool) (significand : Nat) (exponent : Int)
  deriving DecidableEq, Repr

namespace BinaryFloat

def zero : BinaryFloat := finite false 0 0

/-- A power with an exponent of either sign, as numerator and denominator. -/
def power (base : Nat) (exponent : Int) : Nat × Nat :=
  if 0 ≤ exponent then (Nat.pow base exponent.toNat, 1) else (1, Nat.pow base (-exponent).toNat)

/-- The quotient rounded to the nearest natural number, a tie going to the even one. -/
def roundDiv (num den : Nat) : Nat :=
  let quotient := num / den
  let twice := 2 * (num % den)
  if den < twice || (twice = den && quotient % 2 = 1) then quotient + 1 else quotient

/-- The number of a format nearest to `± num / den`. -/
def ofRatio (format : BinaryFormat) (negative : Bool) (num den : Nat) : BinaryFloat :=
  if num = 0 then finite negative 0 0
  else
    let scaled (e : Int) : Nat × Nat := let (up, down) := power 2 e; (num * down, den * up)
    let guess : Int := (Nat.log2 num : Int) - (Nat.log2 den : Int) - (format.precision : Int)
    let narrow := let (n, d) := scaled guess; n / d < format.limit
    let exponent := max (if narrow then guess else guess + 1) format.minExponent
    let (n, d) := scaled exponent
    let rounded := roundDiv n d
    let (significand, exponent) :=
      if rounded = format.limit then (rounded / 2, exponent + 1) else (rounded, exponent)
    if format.maxExponent < exponent then infinite negative
    else finite negative significand exponent

def ofInt (format : BinaryFormat) (value : Int) : BinaryFloat :=
  if value = 0 then zero else ofRatio format (value < 0) value.natAbs 1

/--
The number nearest to `± digits · 10 ^ exponent`. Far outside of every format the power is not even
formed: above `10 ^ 400` all is infinite, below `10 ^ -400` all is zero.
-/
def ofDecimal (format : BinaryFormat) (negative : Bool) (digits : Nat) (exponent : Int) : BinaryFloat :=
  let magnitude : Int := (Nat.toDigits 10 digits).length + exponent
  if digits = 0 || magnitude < -400 then finite negative 0 0
  else if 400 < magnitude then infinite negative
  else
    let (up, down) := power 10 exponent
    ofRatio format negative (digits * up) down

/-- A number rounded to another format. -/
def convert (format : BinaryFormat) : BinaryFloat → BinaryFloat
  | finite negative significand exponent =>
    let (up, down) := power 2 exponent
    ofRatio format negative (significand * up) down
  | other => other

def neg : BinaryFloat → BinaryFloat
  | nan => nan
  | infinite negative => infinite !negative
  | finite negative significand exponent => finite (!negative) significand exponent

def isNegative : BinaryFloat → Bool
  | nan => false
  | infinite negative => negative
  | finite negative _ _ => negative

def isFinite : BinaryFloat → Bool
  | finite .. => true
  | _ => false

def largest (format : BinaryFormat) : BinaryFloat :=
  finite false (format.limit - 1) format.maxExponent

/-- Whether the magnitude of a finite number is at most that of another. -/
def magnitudeLe : BinaryFloat → BinaryFloat → Bool
  | finite _ m e, finite _ n f =>
    let (up, down) := power 2 e
    let (up', down') := power 2 f
    m * up * down' ≤ n * up' * down
  | _, _ => false

/-- The integer part, toward zero, kept within the bounds; what is no number counts as zero. -/
def truncate (low high : Int) : BinaryFloat → Int
  | nan => 0
  | infinite negative => if negative then low else high
  | finite negative significand exponent =>
    let (up, down) := power 2 exponent
    let whole : Int := (significand * up / down : Nat)
    max low (min high (if negative then -whole else whole))

end BinaryFloat

end TestDouble
