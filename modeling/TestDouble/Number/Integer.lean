import TestDouble.Number.Binary
/-!
# Integer types

The twelve integer types with their ranges, and the two conversions into them. Constants are integers
of 128 bits with sign, so a value of the widest type without sign may have no constant.
-/

namespace TestDouble

inductive IntKind where
  | i8 | i16 | i32 | i64 | i128 | isize
  | u8 | u16 | u32 | u64 | u128 | usize
  deriving DecidableEq, Repr

namespace IntKind

def all : List IntKind := [i8, i16, i32, i64, i128, isize, u8, u16, u32, u64, u128, usize]

def name : IntKind → String
  | i8 => "i8" | i16 => "i16" | i32 => "i32" | i64 => "i64" | i128 => "i128" | isize => "isize"
  | u8 => "u8" | u16 => "u16" | u32 => "u32" | u64 => "u64" | u128 => "u128" | usize => "usize"

def ofName? (name : String) : Option IntKind := all.find? fun kind => kind.name == name

/-- The number of bits; the pointer-sized types have 64. -/
def width : IntKind → Nat
  | i8 | u8 => 8
  | i16 | u16 => 16
  | i32 | u32 => 32
  | i64 | u64 | isize | usize => 64
  | i128 | u128 => 128

def isSigned : IntKind → Bool
  | i8 | i16 | i32 | i64 | i128 | isize => true
  | _ => false

def count (kind : IntKind) : Nat := Nat.pow 2 kind.width

def low (kind : IntKind) : Int := if kind.isSigned then -(kind.count / 2 : Nat) else 0

def high (kind : IntKind) : Int :=
  if kind.isSigned then (kind.count / 2 : Nat) - 1 else (kind.count : Int) - 1

/-- The greatest integer that a constant can hold. -/
def constantMax : Int := high i128

def constantMin : Int := low i128

def isConstant (value : Int) : Bool := constantMin ≤ value && value ≤ constantMax

/-- The range of the type as far as constants reach. -/
def bounds (kind : IntKind) : Int × Int := (kind.low, min kind.high constantMax)

/-- The value of the type that is congruent to `value` modulo its width, if a constant can hold it. -/
def wrap (kind : IntKind) (value : Int) : Option Int :=
  let reduced := if kind.isSigned then value.bmod kind.count else value % (kind.count : Int)
  if isConstant reduced then some reduced else none

/-- The integer part of a number, kept within the range of the type, if a constant can hold it. -/
def saturate (kind : IntKind) (value : BinaryFloat) : Option Int :=
  let kept := value.truncate kind.low kind.high
  if isConstant kept then some kept else none

end IntKind

inductive FloatKind where
  | f32 | f64
  deriving DecidableEq, Repr

namespace FloatKind

def name : FloatKind → String
  | f32 => "f32"
  | f64 => "f64"

def ofName? (name : String) : Option FloatKind := [f32, f64].find? fun kind => kind.name == name

def format : FloatKind → BinaryFormat
  | f32 => .binary32
  | f64 => .binary64

/-- The largest finite magnitude, as a number of the wider format. -/
def max (kind : FloatKind) : BinaryFloat := (BinaryFloat.largest kind.format).convert .binary64

end FloatKind

end TestDouble
