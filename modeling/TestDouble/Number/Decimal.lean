import TestDouble.Number.Binary
/-!
# Decimal text of floating-point numbers

The shortest decimal digits that read back as the same number, and the two ways of writing them:
positional, and with an exponent where the magnitude calls for it.
-/

namespace TestDouble.BinaryFloat

/-- The digits of a natural number, most significant first. -/
def digitsOf (value : Nat) : List Char := Nat.toDigits 10 value

/-- The exponent `k` with `10 ^ (k - 1) ≤ num / den < 10 ^ k`. -/
def decimalExponent (num den : Nat) : Int :=
  if den ≤ num then (digitsOf (num / den)).length
  else
    let rec climb : Nat → Nat → Nat → Int
      | 0, _, zeros => -(zeros : Int)
      | fuel + 1, scaled, zeros => if den ≤ scaled then 1 - (zeros : Int) else climb fuel (scaled * 10) (zeros + 1)
    climb 1100 num 0

/-- The numbers that round to a given one lie between these, in quarters of its last place. -/
structure Neighbourhood where
  low : Nat
  value : Nat
  high : Nat
  /-- Whether the ends themselves round to it. -/
  closed : Bool

/-- The neighbourhood of `significand · 2 ^ exponent`; below a power of two the numbers lie denser. -/
def neighbourhood (format : BinaryFormat) (significand : Nat) (exponent : Int) : Neighbourhood :=
  let dense := 2 * significand = format.limit && format.minExponent < exponent
  { low := 4 * significand - (if dense then 1 else 2)
    value := 4 * significand
    high := 4 * significand + 2
    closed := significand % 2 = 0 }

/--
The decimal number `d · 10 ^ e` with the fewest digits that reads back as the number; of two such the
nearer one, and of two equally near the greater. The result is `(d, e)`.
-/
def shortest (format : BinaryFormat) (significand : Nat) (exponent : Int) : Nat × Int :=
  let around := neighbourhood format significand exponent
  let (up, down) := power 2 (exponent - 2)
  let k := decimalExponent (around.value * up) down
  let rec search : Nat → Nat → Nat × Int
    | 0, _ => (0, 0)
    | fuel + 1, count =>
      let (tenUp, tenDown) := power 10 (k - count)
      -- everything is compared after multiplication by `down * tenDown`
      let unit := tenUp * down
      let scale := up * tenDown
      let value := around.value * scale
      let below := value / unit
      let hits (candidate : Nat) : Bool :=
        let c := candidate * unit
        if around.closed then around.low * scale ≤ c && c ≤ around.high * scale
        else around.low * scale < c && c < around.high * scale
      let belowNearer := value - below * unit < (below + 1) * unit - value
      if hits below && (!hits (below + 1) || belowNearer) then (below, k - count)
      else if hits (below + 1) then (below + 1, k - count)
      else search fuel (count + 1)
  search 18 1

/-- Digits without trailing zeros, and the place of the point before the first of them. -/
def shortestDigits (format : BinaryFormat) (significand : Nat) (exponent : Int) : List Char × Int :=
  let (digits, lowest) := shortest format significand exponent
  let chars := digitsOf digits
  ((chars.reverse.dropWhile (· = '0')).reverse, chars.length + lowest)

/-- Digits with the point at the given place, and at least one digit on either side. -/
def positional (digits : List Char) (point : Int) : List Char :=
  if point ≤ 0 then '0' :: '.' :: List.replicate (-point).toNat '0' ++ digits
  else
    let whole := point.toNat
    let padded := digits ++ List.replicate (whole - digits.length) '0'
    let tail := padded.drop whole
    padded.take whole ++ '.' :: (if tail.isEmpty then ['0'] else tail)

def scientific (digits : List Char) (point : Int) : List Char :=
  let mantissa := match digits with
    | [] => ['0']
    | [d] => [d]
    | d :: rest => d :: '.' :: rest
  mantissa ++ 'e' :: (toString (point - 1)).toList

/-- Whether a magnitude is written with an exponent: from `10 ^ 16` on, and below `10 ^ -4`. -/
def wantsExponent (point : Int) : Bool := 16 < point || point < -3

/-- The text of a number, with its sign. -/
def text (format : BinaryFormat) : BinaryFloat → String
  | nan => "NaN"
  | infinite negative => if negative then "-inf" else "inf"
  | finite negative significand exponent =>
    let body :=
      if significand = 0 then "0.0".toList
      else
        let (digits, point) := shortestDigits format significand exponent
        if wantsExponent point then scientific digits point else positional digits point
    String.ofList (if negative then '-' :: body else body)

/-- The magnitude of a finite number as a literal: never with an exponent. -/
def magnitudeLiteral (format : BinaryFormat) : BinaryFloat → String
  | finite _ significand exponent =>
    if significand = 0 then "0.0"
    else
      let (digits, point) := shortestDigits format significand exponent
      String.ofList (positional digits point)
  | _ => "0.0"

/-! ### Reading -/

/-- A decimal number: `digits · 10 ^ exponent`. -/
structure Decimal where
  digits : Nat
  exponent : Int

def digitValue? (c : Char) : Option Nat :=
  if '0' ≤ c && c ≤ '9' then some (c.toNat - 48) else none

def digitsValue (chars : List Char) : Option Nat :=
  chars.foldlM (fun value c => (digitValue? c).map (value * 10 + ·)) 0

/-- Digits with an optional point and exponent: `1`, `1.`, `.5`, `1.5e-7`. -/
def decimal? (chars : List Char) : Option Decimal := do
  let isMark (c : Char) : Bool := c = 'e' || c = 'E'
  let mantissa := chars.takeWhile fun c => !isMark c
  let whole := mantissa.takeWhile (· ≠ '.')
  let fraction := (mantissa.drop whole.length).drop 1
  if whole.isEmpty && fraction.isEmpty then none
  let digits ← digitsValue (whole ++ fraction)
  let exponent : Int ←
    match chars.drop mantissa.length with
    | [] => some 0
    | _ :: '-' :: rest => if rest.isEmpty then none else (digitsValue rest).map fun n => -(n : Int)
    | _ :: '+' :: rest => if rest.isEmpty then none else (digitsValue rest).map fun n => (n : Int)
    | _ :: rest => if rest.isEmpty then none else (digitsValue rest).map fun n => (n : Int)
  return ⟨digits, exponent - fraction.length⟩

/-- A number from its text: an optional sign, then `inf`, `infinity`, `nan` or a decimal number. -/
def ofText? (format : BinaryFormat) (text : String) : Option BinaryFloat :=
  let (negative, body) := match text.toList with
    | '-' :: rest => (true, rest)
    | '+' :: rest => (false, rest)
    | all => (false, all)
  let lower := String.ofList (body.map Char.toLower)
  if lower = "inf" || lower = "infinity" then some (infinite negative)
  else if lower = "nan" then some nan
  else (decimal? body).map fun d => ofDecimal format negative d.digits d.exponent

end TestDouble.BinaryFloat
