import TestDouble.Number.Integer
/-!
# Values returned at run time

A double can be told at run time what a method returns. The value comes with its type, and is only ever
read back at the same type.
-/

namespace TestDouble.Run

inductive ValueType where
  | unit
  | bool
  | char
  | int (kind : IntKind)
  | float (kind : FloatKind)
  | string
  | borrowedStr
  | borrowedBytes
  | optionalInt
  | stringList
  | intBool
  | duration
  deriving DecidableEq

namespace ValueType

def name : ValueType → String
  | unit => "()"
  | bool => "bool"
  | char => "char"
  | int kind => kind.name
  | float kind => kind.name
  | string => "alloc::string::String"
  | borrowedStr => "&str"
  | borrowedBytes => "&[u8]"
  | optionalInt => "core::option::Option<i32>"
  | stringList => "alloc::vec::Vec<alloc::string::String>"
  | intBool => "(i32, bool)"
  | duration => "core::time::Duration"

def Carrier : ValueType → Type
  | unit => Unit
  | bool => Bool
  | char => Char
  | int _ => Int
  | float _ => BinaryFloat
  | string => String
  | borrowedStr => String
  | borrowedBytes => List Nat
  | optionalInt => Option Int
  | stringList => List String
  | intBool => Int × Bool
  | duration => Nat

/-- The value that a double returns when nothing is configured. -/
def default : (type : ValueType) → type.Carrier
  | unit => ()
  | bool => false
  | char => '\x00'
  | int _ => (0 : Int)
  | float _ => BinaryFloat.zero
  | string => ""
  | borrowedStr => ""
  | borrowedBytes => []
  | optionalInt => none
  | stringList => []
  | intBool => ((0 : Int), false)
  | duration => (0 : Nat)

end ValueType

structure Value where
  type : ValueType
  carried : type.Carrier

namespace Value

/-- The value at a type, if it is of that type. -/
def at? (value : Value) (type : ValueType) : Option type.Carrier :=
  if same : value.type = type then some (same ▸ value.carried) else none

@[simp] theorem at?_self (value : Value) : value.at? value.type = some value.carried := by
  simp [at?]

theorem at?_eq_none_iff {value : Value} {type : ValueType} : value.at? type = none ↔ value.type ≠ type := by
  by_cases same : value.type = type <;> simp [at?, same]

end Value

end TestDouble.Run
