import TestDouble.Generated.Unit
/-!
# The dispatcher

The dispatcher is the type that creation sites call. Its unit holds the registry of all generated types,
each under the key of its test.
-/

namespace TestDouble

/-- One entry of the registry: a key, a unit and the type in it. -/
structure Registration where
  key : String
  unit : String
  type : String
  deriving DecidableEq

structure Dispatcher where
  name : String
  registrations : List Registration

namespace Dispatcher

/-- The dispatcher of some specifications, registered in their order. -/
def ofSpecifications (name : String) (specifications : List Specification) : Dispatcher where
  name := name
  registrations := specifications.map fun s => ⟨s.key, s.unitName, s.generatedName⟩

/-- Whether the name can be written as a declaration, a path and an import. -/
def isWritable (dispatcher : Dispatcher) : Bool :=
  Name.isPathName dispatcher.name && dispatcher.name != "Self"

def allowUnusedImports : List Tree := code "#[allow(unused_imports)]"

def importItem (dispatcher : Dispatcher) : Tree :=
  .node .itemVerbatim (allowUnusedImports ++
    code "use self::__pinky_ghost::" ++ [Tree.ident dispatcher.name, Tree.punct ";"])

def registrationStatement (registration : Registration) : List Tree :=
  code "registry.register" ++
    [.group .paren (.token (.literal (Text.stringLiteral registration.key)) :: code ", super::" ++
      [Tree.ident registration.unit] ++ code "::" ++ [Tree.ident registration.type] ++ code "::summon"),
      Tree.punct ";"]

/-- The function that builds the registry once. -/
def registryFunction (dispatcher : Dispatcher) : List Tree :=
  let initial :=
    code "let mut registry = ::pinky::Registry::new();" ++
      dispatcher.registrations.flatMap registrationStatement ++ code "registry"
  let body :=
    code "static REGISTRY: ::std::sync::OnceLock<::pinky::Registry> = ::std::sync::OnceLock::new();" ++
      code "REGISTRY.get_or_init" ++ [.group .paren (code "||" ++ [.group .brace initial])]
  code "fn registry() -> &'static ::pinky::Registry" ++ [.group .brace body]

/-- The function that creation sites call. -/
def ofFunction : List Tree :=
  code "#[doc = r\" Mock registered for the calling test function.\"] #[track_caller]" ++
    code "pub fn of<T: ?Sized + 'static>(key: &'static str) -> ::pinky::Ghosted<T>" ++
    [.group .brace (code "match Self::registry().summon::<T>(key)" ++ [.group .brace
      (code "Ok(ghost) => ghost, Err(err) => panic!(\"\x7b\x7d\", err),")])]

def receivedFunction : List Tree :=
  code "#[doc = r\" Verifier of `ghost` expecting exactly `count` calls of the\"]" ++
    code "#[doc = r\" method invoked on it.\"] #[track_caller]" ++
    code "pub fn received<T: ?Sized + 'static>(ghost: &::pinky::Ghosted<T>, count: usize,)" ++
    code "-> ::std::boxed::Box<T>" ++
    [.group .brace (code "match Self::registry().received::<T>(ghost, count)" ++ [.group .brace
      (code "Ok(mock) => mock, Err(err) => panic!(\"\x7b\x7d\", err),")])]

def didNotReceiveFunction : List Tree :=
  code "#[doc = r\" Verifier of `ghost` expecting no call.\"] #[track_caller]" ++
    code "pub fn did_not_receive<T: ?Sized + 'static>(ghost: &::pinky::Ghosted<T>,)" ++
    code "-> ::std::boxed::Box<T>" ++ [.group .brace (code "Self::received(ghost, 0)")]

def unit (dispatcher : Dispatcher) : Tree :=
  let name := Tree.ident dispatcher.name
  let functions := dispatcher.registryFunction ++ ofFunction ++ receivedFunction ++ didNotReceiveFunction
  .node .itemVerbatim
    (code "#[doc(hidden)]" ++
      code "#[allow(non_camel_case_types, non_snake_case, dead_code, unused_mut)]" ++
      [Tree.ident "mod", Tree.ident Name.aggregate,
        .group .brace (code "pub struct" ++ [name, Tree.punct ";"] ++ code "impl" ++
          [name, .group .brace functions])])

end Dispatcher

end TestDouble
