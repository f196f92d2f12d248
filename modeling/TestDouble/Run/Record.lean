import TestDouble.Number.Decimal
import TestDouble.Text.Escape
/-!
# Records of calls

A call is recorded by the name of the method and the texts of its arguments.
-/

namespace TestDouble.Run

inductive Datum where
  | bool (value : Bool)
  | int (value : Int)
  | float (format : BinaryFormat) (value : BinaryFloat)
  | char (value : Char)
  | str (value : String)
  | some (value : Datum)
  | none
  | list (values : List Datum)
  | pair (first second : Datum)
  | unit
  deriving Inhabited

namespace Datum

mutual

def text : Datum → String
  | bool value => toString value
  | int value => toString value
  | float format value => value.text format
  | char value => Text.quotedChar value
  | str value => Text.quoted value
  | some value => "Some(" ++ text value ++ ")"
  | none => "None"
  | list values => "[" ++ ", ".intercalate (texts values) ++ "]"
  | pair first second => "(" ++ text first ++ ", " ++ text second ++ ")"
  | unit => "()"

def texts : List Datum → List String
  | [] => []
  | value :: rest => text value :: texts rest

end

theorem texts_eq_map (values : List Datum) : texts values = values.map text := by
  induction values with
  | nil => rfl
  | cons first rest ih => simp [texts, ih]

end Datum

/-- One shape of call: the method and the texts of the arguments. -/
structure CallRecord where
  method : String
  arguments : List String
  deriving DecidableEq

namespace CallRecord

def ofData (method : String) (arguments : List Datum) : CallRecord := ⟨method, Datum.texts arguments⟩

def text (record : CallRecord) : String :=
  record.method ++ "(" ++ ", ".intercalate record.arguments ++ ")"

def inspect (record : CallRecord) : String :=
  let arguments := record.arguments.map fun a => "Argument(" ++ Text.quoted a ++ ")"
  "CallRecord \x7b method: " ++ Text.quoted record.method ++ ", arguments: [" ++
    ", ".intercalate arguments ++ "] \x7d"

end CallRecord

end TestDouble.Run
