/-!
# Problems

What can be wrong with an annotated module. A problem is held as its cause; `message` and `help` are
the only places that know the wording.
-/

namespace TestDouble

/-- A reason why a test, or the whole module, cannot be given its doubles. -/
inductive Problem where
  /-- The contract named by a creation site cannot be used. -/
  | unresolvableContract (reason : String)
  /-- The result type of a member has no default value. -/
  | unresolvableMember (member reason : String)
  /-- A member cannot be part of a trait object. -/
  | unsupportedMember (member reason : String)
  /-- A configured constant is no value of the result type. -/
  | mismatchedValue (member expected found : String)
  /-- Two tests would get types of the same name. -/
  | duplicateName (name : String)
  /-- A creation site stands outside the test functions. -/
  | noSpecification (key : String)
  /-- The creation sites of one test name different contracts. -/
  | conflictingContracts (key first second : String)
  deriving DecidableEq, Repr

namespace Problem

def message : Problem → String
  | unresolvableContract reason => s!"cannot resolve the mocked contract: {reason}"
  | unresolvableMember member reason => s!"cannot mock `{member}`: {reason}"
  | unsupportedMember member reason => s!"cannot mock `{member}`: {reason}"
  | mismatchedValue member expected found =>
    s!"value configured for `{member}` does not fit `{expected}`: {found}"
  | duplicateName name => s!"generated mock name `{name}` is used by more than one test"
  | noSpecification key => s!"no mock specification matches `{key}`"
  | conflictingContracts key first second => s!"`{key}` mocks both `{first}` and `{second}`"

def help : Problem → Option String
  | unresolvableContract _ =>
    some "mock a non-generic trait declared in this module, e.g. `Ghost::of::<dyn Trait>()`"
  | unresolvableMember .. => some "return types must have a default value"
  | unsupportedMember .. => some "the mocked trait must be usable as `dyn Trait`"
  | mismatchedValue .. => none
  | duplicateName _ => some "rename one of the tests or move it to another module"
  | noSpecification _ => some "mocks can only be created directly inside test functions"
  | conflictingContracts .. => some "a test function mocks a single trait, split it into several tests"

/-- The kind of a problem, by name. -/
def kind : Problem → String
  | unresolvableContract _ => "UnresolvableContractType"
  | unresolvableMember .. => "UnresolvableMemberType"
  | unsupportedMember .. => "UnsupportedMember"
  | mismatchedValue .. => "ConfiguredValueMismatch"
  | duplicateName _ => "DuplicateGeneratedName"
  | noSpecification _ => "NoMatchingSpecification"
  | conflictingContracts .. => "ConflictingContracts"

end Problem

end TestDouble
