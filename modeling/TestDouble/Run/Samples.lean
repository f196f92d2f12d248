import TestDouble.Run.Session
/-!
# Sample doubles

Two contracts with methods of all kinds of results, and four generated types for them. They serve to
exercise registries, handles and verifiers. The contracts are known by their full names, so everything
depends on the path of the module that declares them, their `home`.
-/

namespace TestDouble.Run.Samples

def traitObject (home name : String) : String := "dyn " ++ home ++ "::" ++ name

def valuesContract (home : String) : String := traitObject home "IValues"

def greeterContract (home : String) : String := traitObject home "IGreeter"

/-- A method that returns the given value, or the default of its type. -/
def method (name : String) (type : ValueType) (value : Option type.Carrier) : Method :=
  { name, type, baked := value.getD type.default,
    fixed := type = .unit || type = .borrowedStr || type = .borrowedBytes }

/-- The methods of the contract of all kinds of results; `configured` gives some of them other values. -/
def valueMethods (configured : Bool) : List Method :=
  let given {α : Type} (value : α) : Option α := if configured then some value else none
  [ method "void" .unit none,
    method "flag" .bool (given true),
    method "letter" .char (given 'é'),
    method "small" (.int .i8) (given (-1 : Int)),
    method "count" (.int .i32) (given (-15 : Int)),
    method "big" (.int .u64) (given (18446744073709551615 : Int)),
    method "half" (.float .f32) (given (BinaryFloat.ofInt .binary32 1)),
    method "ratio" (.float .f64) (given (BinaryFloat.ofDecimal .binary64 true 25 (-1))),
    method "text" .string (given "line\n\"quoted\""),
    method "name" .borrowedStr (given "ghost"),
    method "bytes" .borrowedBytes none,
    method "maybe" .optionalInt none,
    method "list" .stringList none,
    method "pair" .intBool none,
    method "elapsed" .duration none,
    method "type" (.int .i32) (given (4 : Int)),
    method "add" (.int .i32) (given (3 : Int)),
    method "push" .unit none ]

def defaults (home : String) : Factory := ⟨valuesContract home, valueMethods false⟩

def configured (home : String) : Factory := ⟨valuesContract home, valueMethods true⟩

def greets (home : String) : Factory := ⟨greeterContract home, [method "greet" .string (some "hello")]⟩

def innerGreets (home : String) : Factory := ⟨greeterContract home, [method "greet" .string none]⟩

def factory? (home name : String) : Option Factory :=
  [("defaults", defaults home), ("configured", configured home), ("greets", greets home),
    ("inner_greets", innerGreets home)].lookup name

def contract (home name : String) : String :=
  if name = "IValues" then valuesContract home else greeterContract home

/-- The registry of the dispatcher that was generated for the samples. -/
def dispatcher (home : String) : Registry :=
  [("samples::defaults", defaults home), ("samples::configured", configured home),
    ("samples::greets", greets home), ("samples::inner::greets", innerGreets home)].foldl
    (fun registry (key, factory) => registry.register key factory) {}

def session (home : String) : Session := { dispatcher := dispatcher home }

end TestDouble.Run.Samples
