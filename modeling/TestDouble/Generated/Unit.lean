import TestDouble.Specification
/-!
# The unit of a specification

Each specification becomes a module of its own with one type, its constructor and the implementation of
the contract. A method first records the call, or checks the count of calls; then it returns the value
configured at run time, the configured constant, or the default.
-/

namespace TestDouble

namespace MethodSpecification

/-- The name under which calls of the method are recorded. -/
def nameLiteral (method : MethodSpecification) : Tree :=
  .token (.literal (Text.stringLiteral (Name.unraw method.name)))

/-- The value that the method returns unless another one is configured at run time. -/
def baked? (method : MethodSpecification) : Option (List Tree) :=
  (method.configured.bind method.type.constant?).or method.type.defaultValue?

/-- The expression that the body of the method ends with; a method without value has none. -/
def result (method : MethodSpecification) : List Tree :=
  match method.signature.resultType? with
  | none => []
  | some type =>
    if method.type.isNoValue then []
    else
      match method.baked? with
      | none => []
      | some value =>
        if ResultType.isBorrowed method.signature then value
        else
          code "self.core.returned::" ++ [Tree.punct "<", type, Tree.punct ">",
            .group .paren (method.nameLiteral :: code ", ||" ++ value)]

def observation (method : MethodSpecification) : List Tree :=
  code "self.core.observe" ++
    [.group .paren (code "self.mode," ++ method.nameLiteral :: code ", &[]"), Tree.punct ";"]

def item (method : MethodSpecification) : List Tree :=
  code "#[allow(unused_variables)]" ++
    [method.signature, .group .brace (method.observation ++ method.result)]

end MethodSpecification

namespace Specification

/-- The names of the generated type, its constructor and its contract can all be written. -/
def isWritable (specification : Specification) : Bool :=
  Name.isDeclarable specification.generatedName && !Name.isRaw specification.generatedName &&
    Name.isPathName specification.contract &&
    specification.imports.all fun path => path.segments.all Name.isValid

def typeName (specification : Specification) : Tree := Tree.ident specification.generatedName

def unitName (specification : Specification) : String := Name.unit specification.generatedName

/-- The type: what the doubles of one creation share, and how this one behaves. -/
def typeItem (specification : Specification) : List Tree :=
  code "pub struct" ++ [specification.typeName,
    .group .brace (code "core: ::std::rc::Rc<::pinky::MockCore>, mode: ::pinky::Mode,")]

/-- The constructor, which hides the type behind its contract. -/
def constructor (specification : Specification) : List Tree :=
  let contract := Tree.ident specification.contract
  let creation :=
    code "let mock: ::std::boxed::Box<dyn" ++ [contract] ++
      code "> = ::std::boxed::Box::new(Self \x7b core, mode \x7d); ::std::boxed::Box::new(mock)"
  let function :=
    code "pub fn summon(core: ::std::rc::Rc<::pinky::MockCore>, mode: ::pinky::Mode,)" ++
      code "-> ::std::boxed::Box<dyn ::std::any::Any>" ++ [.group .brace creation]
  code "impl" ++ [specification.typeName, .group .brace function]

def implementation (specification : Specification) : List Tree :=
  (if specification.isUnsafe then [Tree.ident "unsafe"] else []) ++
    code "impl" ++ [Tree.ident specification.contract] ++ code "for" ++
    [specification.typeName, .group .brace (specification.methods.flatMap MethodSpecification.item)]

def unit (specification : Specification) : Tree :=
  .node .itemVerbatim
    (code "#[doc(hidden)]" ++
      code "#[allow(non_camel_case_types, non_snake_case, dead_code, unused_imports)]" ++
      [Tree.ident "mod", Tree.ident specification.unitName,
        .group .brace (specification.imports.map ImportPath.toItem ++ specification.typeItem ++
          specification.constructor ++ specification.implementation)])

end Specification

end TestDouble
