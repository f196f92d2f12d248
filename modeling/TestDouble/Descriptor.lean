import TestDouble.Constant.Value
import TestDouble.Source.Code
/-!
# Descriptors of result types

A descriptor says as much about the result type of a method as is needed to produce values of it: the
default that a double returns, and the expression for a configured constant.
-/

namespace TestDouble

inductive Origin where
  /-- A standard library type with a default value. -/
  | wellKnown
  /-- Declared inside the annotated module. -/
  | declared
  /-- Brought in from elsewhere. -/
  | imported
  deriving DecidableEq, Repr

/-- What is known about the result type of a method. -/
inductive Descriptor where
  | noValue
  | bool
  | char
  | int (kind : IntKind)
  | float (kind : FloatKind)
  /-- A string, owned or borrowed. -/
  | str (owned : Bool)
  | duration
  | slice
  | tuple (elements : List Descriptor)
  | named (path : String) (origin : Origin)
  /-- A type of which only the spelling is known. -/
  | unplaced (spelling : String)
  deriving Inhabited

namespace Descriptor

def isNoValue : Descriptor → Bool
  | noValue => true
  | _ => false

def newString : List Tree := code "::std::string::String::new()"
def stringFrom : List Tree := code "::std::string::String::from"
def zeroDuration : List Tree := code "::std::time::Duration::ZERO"
def emptySlice : List Tree := code "&[]"
def anyDefault : List Tree := code "::core::default::Default::default()"

def literal (spelling : String) : Tree := .token (.literal spelling)

/-- The expression of the default value; a type without value has none. -/
def defaultValue? : Descriptor → Option (List Tree)
  | noValue => none
  | bool => some [Tree.ident "false"]
  | char => some [literal (Text.quotedChar '\x00')]
  | int _ => some [literal "0"]
  | float _ => some [literal "0.0"]
  | str true => some newString
  | str false => some [literal (Text.stringLiteral "")]
  | duration => some zeroDuration
  | slice => some emptySlice
  | tuple _ | named .. | unplaced _ => some anyDefault

/-- A number with its sign as a token of its own. -/
def signed (negative : Bool) (magnitude : String) : List Tree :=
  if negative then [Tree.punct "-", literal magnitude] else [literal magnitude]

/-- The literal of a number of a floating-point type, unless it is too large or no number. -/
def floatValue (kind : FloatKind) (value : BinaryFloat) : Option (List Tree) :=
  if value.isFinite && value.magnitudeLe kind.max then
    some (signed value.isNegative (value.magnitudeLiteral .binary64))
  else none

/-- The expression that produces a constant as a value of the type, if it is one. -/
def constant? : Descriptor → Constant → Option (List Tree)
  | bool, .bool value => some [Tree.ident (toString value)]
  | char, .char value => some [literal (Text.quotedChar value)]
  | int kind, .int value =>
    if kind.bounds.1 ≤ value && value ≤ kind.bounds.2 then
      some (signed (value < 0) (toString value.natAbs))
    else none
  | float kind, .int value => floatValue kind (BinaryFloat.ofInt .binary64 value)
  | float kind, .float value => floatValue kind value
  | str true, .str value => some (stringFrom ++ [Tree.group .paren [literal (Text.stringLiteral value)]])
  | str false, .str value => some [literal (Text.stringLiteral value)]
  | _, _ => none

end Descriptor

end TestDouble
