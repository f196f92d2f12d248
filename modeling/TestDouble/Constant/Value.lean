import TestDouble.Number.Integer
import TestDouble.Number.Decimal
import TestDouble.Text.Escape
/-!
# Constants

The values that an expression can have before the program runs, and the conversions between them.
-/

namespace TestDouble

/-- A value known before the program runs. An integer has 128 bits with sign. -/
inductive Constant where
  | bool (value : Bool)
  | char (value : Char)
  | int (value : Int)
  | float (value : BinaryFloat)
  | str (value : String)
  deriving DecidableEq, Repr

namespace Constant

/-- What kind of constant it is, in words. -/
def kind : Constant → String
  | bool _ => "bool"
  | char _ => "char"
  | int _ => "integer"
  | float _ => "float"
  | str _ => "string"

def text : Constant → String
  | bool value => toString value
  | char value => Text.quotedChar value
  | int value => toString value
  | float value => value.text .binary64
  | str value => Text.quoted value

def neg : Constant → Option Constant
  | int value => if IntKind.isConstant (-value) then some (int (-value)) else none
  | float value => some (float value.neg)
  | _ => none

def not : Constant → Option Constant
  | bool value => some (bool !value)
  | _ => none

def toInt (kind : IntKind) : Constant → Option Int
  | int value => kind.wrap value
  | float value => kind.saturate value
  | char value => kind.wrap value.toNat
  | bool value => kind.wrap value.toInt
  | str _ => none

/-- A number converted to a floating-point type; a constant keeps it in the wider format. -/
def toFloat (kind : FloatKind) : Constant → Option BinaryFloat
  | int value => some ((BinaryFloat.ofInt kind.format value).convert .binary64)
  | float value => some ((value.convert kind.format).convert .binary64)
  | _ => none

/-- A constant converted to the type of the given name. -/
def cast (target : String) (value : Constant) : Option Constant :=
  match IntKind.ofName? target with
  | some kind => (value.toInt kind).map int
  | none =>
    match FloatKind.ofName? target with
    | some kind => (value.toFloat kind).map float
    | none => none

end Constant

end TestDouble
