import TestDouble.Run.Ledger
import TestDouble.Run.Value
/-!
# The core of a double

A double and all its verifiers share one core: the ledger of the calls, and the values configured at run
time. A call through the double is recorded; a call through a verifier is checked instead.
-/

namespace TestDouble.Run

inductive RunError where
  /-- No type is registered for a key. -/
  | noMatchingSpecification (key : String)
  /-- The type registered for a key implements another contract. -/
  | contractMismatch (key contract : String)
  /-- The value configured for a method has another type than the one asked for. -/
  | configuredTypeMismatch (method expected : String)
  | verification (error : VerificationError)
  deriving DecidableEq

namespace RunError

def message : RunError → String
  | noMatchingSpecification key => s!"no mock specification is registered for `{key}`"
  | contractMismatch key contract => s!"mock registered for `{key}` does not implement `{contract}`"
  | configuredTypeMismatch method expected =>
    s!"return value configured for `{method}` is not a `{expected}`"
  | verification error => error.message

/-- The kind of an error, by name. -/
def kind : RunError → String
  | noMatchingSpecification _ => "NoMatchingSpecification"
  | contractMismatch .. => "ContractMismatch"
  | configuredTypeMismatch .. => "ConfiguredTypeMismatch"
  | verification _ => "Verification"

end RunError

inductive Mode where
  /-- The call is recorded. -/
  | stub
  /-- The calls recorded so far are checked against an exact count. -/
  | verifying (expected : Nat)
  deriving DecidableEq

namespace Mode

def inspect : Mode → String
  | stub => "Stub"
  | verifying expected => "Verifying \x7b expected: " ++ toString expected ++ " \x7d"

end Mode

/-- What a double shares with its verifiers. -/
structure Core where
  ledger : Ledger := {}
  /-- The values configured at run time, the newest first. -/
  overrides : List (String × Value) := []

namespace Core

/-- The core after a call in a mode, or why the call fails; a failed call changes nothing. -/
def observe (core : Core) (mode : Mode) (call : CallRecord) : Except VerificationError Core :=
  match mode with
  | .stub => .ok { core with ledger := core.ledger.track call }
  | .verifying expected => (core.ledger.check call expected).map fun _ => core

/-- The core with a value that a method returns from now on. -/
def configure (core : Core) (method : String) (value : Value) : Core :=
  { core with overrides := (method, value) :: core.overrides }

/-- The value configured for a method at a type, if any. -/
def configured (core : Core) (method : String) (type : ValueType) : Except RunError (Option type.Carrier) :=
  match core.overrides.lookup method with
  | none => .ok none
  | some value =>
    match value.at? type with
    | some carried => .ok (some carried)
    | none => .error (.configuredTypeMismatch method type.name)

theorem configured_configure_self (core : Core) (method : String) (value : Value) :
    (core.configure method value).configured method value.type = .ok (some value.carried) := by
  simp [configure, configured]

/-- What a method returns: the configured value, or else the given one. -/
def returned (core : Core) (method : String) (type : ValueType) (fallback : type.Carrier) :
    Except RunError type.Carrier :=
  (core.configured method type).map fun found => found.getD fallback

end Core

end TestDouble.Run
