import TestDouble.Generated.Dispatcher
import TestDouble.Source.Rereading
/-!
# Units that read back

The items and methods of a unit, the import of the dispatcher and its implementation are read again as what they are
meant to be.
-/

namespace TestDouble

/-- Whether a method of a unit reads as one. It repeats a signature of the contract. -/
def MethodSpecification.rereads (method : MethodSpecification) : Bool :=
  Tree.rereads Grammar.method method.item

namespace Specification

/-- Whether the implementation of the contract reads, each method by itself and all of them together. -/
def implementationRereads (specification : Specification) : Bool :=
  specification.methods.all MethodSpecification.rereads &&
    Tree.rereads (Grammar.attributed Grammar.itemImpl) specification.implementation

/-- Whether the names of a unit can be written, and all of its parts read. -/
def rereads (specification : Specification) : Bool :=
  specification.isWritable &&
    Tree.rereads (Grammar.attributed Grammar.itemStruct) specification.typeItem &&
    Tree.rereads (Grammar.attributed Grammar.itemImpl) specification.constructor &&
    specification.implementationRereads

end Specification

namespace Dispatcher

/-- The implementation of the dispatcher, as its unit holds it. -/
def implementation (dispatcher : Dispatcher) : List Tree :=
  code "impl" ++ [Tree.ident dispatcher.name, .group .brace
    (dispatcher.registryFunction ++ ofFunction ++ receivedFunction ++ didNotReceiveFunction)]

theorem unit_eq (dispatcher : Dispatcher) : dispatcher.unit = .node .itemVerbatim
    (code "#[doc(hidden)]" ++ code "#[allow(non_camel_case_types, non_snake_case, dead_code, unused_mut)]" ++
      [Tree.ident "mod", Tree.ident Name.aggregate,
        .group .brace (code "pub struct" ++ [Tree.ident dispatcher.name, Tree.punct ";"] ++
          dispatcher.implementation)]) := by
  simp [unit, implementation]

/-- Whether the name of the dispatcher can be written, and its import and implementation read. -/
def rereads (dispatcher : Dispatcher) : Bool :=
  dispatcher.isWritable &&
    Tree.rereads (Grammar.attributed Grammar.itemUse) [dispatcher.importItem] &&
    Tree.rereads (Grammar.attributed Grammar.itemImpl) dispatcher.implementation

end Dispatcher

end TestDouble
