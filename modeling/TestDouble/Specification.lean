import TestDouble.Contract
import TestDouble.Constant.Scope
import TestDouble.Import
import TestDouble.ResultType
import TestDouble.Site.Basic
/-!
# Specifications

The specification of a test says which double is generated for it: the contract, what the generated unit
imports, and for every method its signature, the descriptor of its result and the configured constant.
A test without creation sites has none.
-/

namespace TestDouble

structure MethodSpecification where
  name : String
  /-- The signature as it appears in the generated unit. -/
  signature : Tree
  type : Descriptor
  configured : Option Constant

structure Specification where
  generatedName : String
  key : String
  contract : String
  isUnsafe : Bool
  /-- What the unit imports, in ascending order. -/
  imports : List ImportPath
  methods : List MethodSpecification

namespace Specification

/-! ### The contract of a creation site -/

/-- Why a creation site does not name a contract. -/
inductive MarkerFault where
  | noArgument
  | manyArguments
  | noTraitObject
  | moreBounds
  deriving DecidableEq

def MarkerFault.message : MarkerFault → String
  | noArgument => "expected a type argument, e.g. `Ghost::of::<dyn Trait>()`"
  | manyArguments => "expected exactly one type argument"
  | noTraitObject => "expected a trait object type, e.g. `dyn Trait`"
  | moreBounds => "additional bounds on the mocked trait are not supported"

/-- The generic arguments of the last segment of a called path. -/
def typeArguments? : Tree → Option (List Tree)
  | .node .pathExpr [_, path] =>
    match path.segments.getLast? with
    | some (.node .segment [_, .node .genericArguments (_ :: _ :: rest)]) =>
      some (rest.dropLast.filter fun t => !t.isPunct ",")
    | _ => none
  | _ => none

def bare : Tree → Tree
  | .node .typeParen [.node (.group .paren) [inner]] => bare inner
  | type => type

/-- The trait path of a bound that introduces no lifetimes and is not relaxed. -/
def plainBound? : Tree → Option Tree
  | .node .traitBound [.node .absent _, .node .absent _, path] => some path
  | .node .traitBound [.node (.group .paren) [.node .absent _, .node .absent _, path]] => some path
  | _ => none

/-- The path of the one trait that a creation site names. -/
def contractPath (marker : Call) : Except MarkerFault Tree :=
  match typeArguments? marker.callee with
  | none => .error .noArgument
  | some [argument] =>
    match bare argument with
    | .node .typePath [.node .path children] => .ok (.node .path children)
    | .node .typeObject (_ :: bounds) =>
      match bounds.filter fun t => !t.isPunct "+" with
      | [one] =>
        match plainBound? one with
        | some path => .ok path
        | none => .error .noTraitObject
      | _ => .error .moreBounds
    | _ => .error .noTraitObject
  | some _ => .error .manyArguments

/-- The trait that a creation site names, and the module that declares it. -/
def contractOf (catalog : Catalog) (module : ModulePath) (marker : Call) :
    Except Problem (ModulePath × TraitItem) :=
  match contractPath marker with
  | .error fault => .error (.unresolvableContract fault.message)
  | .ok path =>
    let written := "::".intercalate path.names
    if path.segments.any Tree.hasArguments then .error (.unresolvableContract s!"`{written}` is generic")
    else
      match catalog.resolve module path.names with
      | some (.trait module item) => .ok (module, item)
      | some _ => .error (.unresolvableContract s!"`{written}` is not a trait declared in this module")
      | none => .error (.unresolvableContract s!"cannot find trait `{written}`")

/-- What is wrong with a further creation site: all of a test must name the same contract. -/
def otherMarkerProblem? (catalog : Catalog) (test : Test) (key : String)
    (contract : ModulePath × TraitItem) (marker : Call) : Option Problem :=
  match contractOf catalog test.module marker with
  | .error problem => some problem
  | .ok (module, item) =>
    if module = contract.1 && item.name = contract.2.name then none
    else some (.conflictingContracts key contract.2.name item.name)

/-! ### Methods -/

/-- How a type is shown when a value does not fit it. -/
def shownResult (signature : Tree) : String :=
  match signature.resultType? with
  | none => "()"
  | some type => type.spaced

/-- The constant configured for a method; an argument that is no constant configures nothing. -/
def configuredConstant (scope : ConstScope) (signature : Tree) (type : Descriptor)
    (configured : Option (Option Tree)) : Except Problem (Option Constant) :=
  match configured with
  | some (some argument) =>
    match scope.evaluate argument with
    | none => .ok none
    | some value =>
      if (type.constant? value).isSome then .ok (some value)
      else .error (.mismatchedValue signature.signatureName (shownResult signature)
        s!"{value.kind} `{value.text}`")
  | _ => .ok none

/-- One method of a contract declared in the given module. -/
def method (catalog : Catalog) (module : ModulePath) (scope : ConstScope) (sites : Sites)
    (signature : Tree) : Except Problem MethodSpecification :=
  let name := signature.signatureName
  match ResultType.ofSignature catalog module signature with
  | .error fault => .error (.unresolvableMember name fault.message)
  | .ok type =>
    match configuredConstant scope signature type (sites.configured? name) with
    | .error problem => .error problem
    | .ok configured =>
      .ok { name, signature := Import.rebase catalog module signature, type, configured }

/-- The problems among results, in order. -/
def problemsOf (results : List (Except Problem MethodSpecification)) : List Problem :=
  results.filterMap fun
    | .error problem => some problem
    | .ok _ => none

/-- The methods among results, in order. -/
def methodsOf (results : List (Except Problem MethodSpecification)) : List MethodSpecification :=
  results.filterMap fun
    | .error _ => none
    | .ok method => some method

def importsOf (catalog : Catalog) (module : ModulePath) (contract : TraitItem) : List ImportPath :=
  ImportPath.sorted ((Import.ofPath catalog module [contract.name]).toList ++
    (Contract.methods contract).flatMap (Import.needed catalog module))

/-- The specification of a test with the given contract, or all problems of its methods. -/
def ofContract (catalog : Catalog) (test : Test) (sites : Sites) (module : ModulePath)
    (contract : TraitItem) : Except (List Problem) Specification :=
  let scope := ConstScope.ofBody test.function.body (catalog.constants test.module)
  let results := (Contract.methods contract).map (method catalog module scope sites)
  if (problemsOf results).isEmpty then
    .ok {
      generatedName := Name.generated catalog.root test.module test.function.name
      key := Name.key catalog.root test.module test.function.name
      contract := contract.name
      isUnsafe := contract.isUnsafe
      imports := importsOf catalog module contract
      methods := methodsOf results }
  else .error (problemsOf results)

/-- The specification of a test, or what is wrong with it. -/
def ofTest (catalog : Catalog) (test : Test) (sites : Sites) :
    Except (List Problem) (Option Specification) :=
  match sites.markers with
  | [] => .ok none
  | marker :: others =>
    match contractOf catalog test.module marker with
    | .error problem => .error [problem]
    | .ok (module, contract) =>
      let key := Name.key catalog.root test.module test.function.name
      match others.filterMap (otherMarkerProblem? catalog test key (module, contract)) with
      | problem :: more => .error (problem :: more)
      | [] =>
        match Contract.problem? contract, Contract.memberProblems contract with
        | some problem, _ => .error [problem]
        | none, problem :: more => .error (problem :: more)
        | none, [] => (ofContract catalog test sites module contract).map some

end Specification

end TestDouble
