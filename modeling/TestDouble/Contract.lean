import TestDouble.Problem
import TestDouble.Source.Canonical
import TestDouble.Source.View
/-!
# Contracts

A contract is a trait of which doubles can be made: it has no parameters and no supertraits, and every
member is a method that can be called through a trait object.
-/

namespace TestDouble

namespace Contract

def problem? (contract : TraitItem) : Option Problem :=
  if !contract.parameters.isEmpty then some (.unresolvableContract s!"`{contract.name}` is generic")
  else if !contract.supertraits.isEmpty then
    some (.unresolvableContract s!"`{contract.name}` has supertraits")
  else none

def hasReceiver (view : Signature) : Bool :=
  view.inputs.elements.any fun t => t.kind? == some .receiver

/-- Whether there is a parameter in angle brackets other than a lifetime. -/
def hasTypeParameters (view : Signature) : Bool :=
  view.generics.parameters.any fun t => t.kind? != some .lifetimeParameter

/-- Why a method cannot be called through a trait object. -/
def methodFault? (view : Signature) : Option String :=
  if !hasReceiver view then some "static functions are not supported"
  else if !view.asyncness.isAbsent then some "`async fn` is not supported"
  else if !view.constness.isAbsent then some "`const fn` is not supported"
  else if hasTypeParameters view then some "methods with type or const parameters are not supported"
  else none

def memberProblem? : Tree → Option Problem
  | .node .traitConst (_ :: _ :: .token (.ident name) :: _) =>
    some (.unsupportedMember name "associated consts are not supported")
  | .node .traitType (_ :: _ :: .token (.ident name) :: _) =>
    some (.unsupportedMember name "associated types are not supported")
  | .node .traitInvocation (_ :: .node .invocation (path :: _) :: _) =>
    some (.unsupportedMember path.spaced "macros in trait bodies are not supported")
  | .node .traitFn [_, signature, _] =>
    signature.asSignature?.bind fun view =>
      (methodFault? view).map fun reason => .unsupportedMember view.name reason
  | _ => none

/-- What is wrong with the members, in the order of their declaration. -/
def memberProblems (contract : TraitItem) : List Problem :=
  contract.members.filterMap memberProblem?

/-- The signatures of the methods, in the order of their declaration. -/
def methods (contract : TraitItem) : List Tree :=
  contract.members.filterMap Tree.methodSignature?

end Contract

end TestDouble
