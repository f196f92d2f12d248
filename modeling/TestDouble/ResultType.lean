import TestDouble.Catalog.Resolve
import TestDouble.WellKnown
import TestDouble.Source.Canonical
/-!
# Result types

The descriptor of the result type of a method, as seen from the module that declares its contract, or
the reason why the type has no default value. Aliases are followed, up to a fixed depth.
-/

namespace TestDouble

inductive TypeFault where
  | nestsTooDeeply
  | mutableReference
  | otherReference
  | qualifiedPath
  | implTrait
  | never
  | rawPointer
  | functionPointer
  | unsized
  | unsupported
  | emptyPath
  | selfType
  | notAType (written : String)
  | withoutDefault (written : String)
  deriving DecidableEq

namespace TypeFault

def message : TypeFault → String
  | nestsTooDeeply => "type aliases nest too deeply"
  | mutableReference => "mutable references have no default value"
  | otherReference => "references other than `&str` and `&[T]` have no default value"
  | qualifiedPath => "qualified paths have no default value"
  | implTrait => "`impl Trait` has no default value"
  | never => "`!` has no value"
  | rawPointer => "raw pointers have no default value"
  | functionPointer => "function pointers have no default value"
  | unsized => "unsized types cannot be returned by value"
  | unsupported => "unsupported return type"
  | emptyPath => "empty type path"
  | selfType => "`Self` cannot be named by a mock"
  | notAType written => s!"`{written}` is not a type"
  | withoutDefault written => s!"`{written}` has no default value"

end TypeFault

namespace ResultType

/-- The descriptor of a well-known name, written as the given path. -/
def ofKnown (written : String) : Known → Except TypeFault Descriptor
  | .builtin descriptor => .ok descriptor
  | .defaultable => .ok (.named written .wellKnown)
  | .withoutDefault => .error (.withoutDefault written)
  | .noType => .error (.notAType written)

/-- A name that resolves to nothing: well-known, or only its spelling is known. -/
def ofName (name written : String) : Except TypeFault Descriptor :=
  match WellKnown.find? name with
  | some known => ofKnown written known
  | none => .ok (.unplaced written)

/-- A name imported from outside: one of the standard library may be well-known. -/
def ofImport (path : List String) (last written : String) : Except TypeFault Descriptor :=
  let fromStandard := (path.head?.map WellKnown.standardCrates.contains).getD false
  let known := if fromStandard then WellKnown.find? (path.getLast?.getD last) else none
  match known with
  | some known => ofKnown written known
  | none => .ok (.named written .imported)

/-- The descriptor of a path; `follow` resolves the type that an alias stands for. -/
def ofPath (catalog : Catalog) (module : ModulePath) (path : Tree)
    (follow : ModulePath → Tree → Except TypeFault Descriptor) : Except TypeFault Descriptor :=
  let names := path.names
  let written := "::".intercalate names
  match names.head?, names.getLast? with
  | some first, some last =>
    if first = "Self" then .error .selfType
    else if path.isRootPath || WellKnown.standardCrates.contains first then ofName last written
    else
      match catalog.resolve module names with
      | some (.type module _ (some target)) => follow module target
      | some (.type _ _ none) => .ok (.named written .declared)
      | some (.external _ _ path) => ofImport path last written
      | some (.trait ..) | some (.module _) => .error (.notAType written)
      | none => ofName last written
  | _, _ => .error .emptyPath

def ofReferent (mutable : Bool) (referent : Tree) : Except TypeFault Descriptor :=
  if mutable then .error .mutableReference
  else
    match referent with
    | .node .typeSlice _ => .ok .slice
    | _ =>
      if (referent.asPath?.bind Tree.onlyName?) = some "str" then .ok (.str false)
      else .error .otherReference

/-- The descriptor of a type, by at most `fuel` nested steps. -/
def resolveWithin (catalog : Catalog) : (fuel : Nat) → ModulePath → Tree → Except TypeFault Descriptor
  | 0, _, _ => .error .nestsTooDeeply
  | fuel + 1, module, type =>
    match type with
    | .node .typeTuple [group] =>
      match group.elements with
      | [] => .ok .noValue
      | elements => (elements.mapM (resolveWithin catalog fuel module)).map .tuple
    | .node .typeParen [.node (.group .paren) [inner]] => resolveWithin catalog fuel module inner
    | .node .typeReference [_, _, mutability, referent] => ofReferent (!mutability.isAbsent) referent
    | .node .typePath [.node .qualified _] => .error .qualifiedPath
    | .node .typePath [path] => ofPath catalog module path (resolveWithin catalog fuel)
    | .node .typeArray _ => .ok (.unplaced type.spaced)
    | .node .typeImpl _ => .error .implTrait
    | .node .typeNever _ => .error .never
    | .node .typePointer _ => .error .rawPointer
    | .node .typeFunction _ => .error .functionPointer
    | .node .typeObject _ | .node .typeSlice _ => .error .unsized
    | _ => .error .unsupported

theorem resolveWithin_path (catalog : Catalog) (fuel : Nat) (module : ModulePath) {path : Tree}
    (plain : path.kind? ≠ some .qualified) :
    resolveWithin catalog (fuel + 1) module (.node .typePath [path]) =
      ofPath catalog module path (resolveWithin catalog fuel) := by
  rw [resolveWithin]
  rintro children rfl
  exact plain rfl

/-- A path with names is no qualified one. -/
theorem resolveWithin_names (catalog : Catalog) (fuel : Nat) (module : ModulePath) {path : Tree} {first : String}
    {rest : List String} (names : path.names = first :: rest) :
    resolveWithin catalog (fuel + 1) module (.node .typePath [path]) =
      ofPath catalog module path (resolveWithin catalog fuel) := by
  apply resolveWithin_path
  intro same
  cases path with
  | token t => cases same
  | node kind children =>
      cases same
      cases names

/-- How deeply types may nest, aliases included, and one. -/
def maxDepth : Nat := 17

/-- The descriptor of a type as seen from a module. -/
def resolve (catalog : Catalog) (module : ModulePath) (type : Tree) : Except TypeFault Descriptor :=
  resolveWithin catalog maxDepth module type

def ofSignature (catalog : Catalog) (module : ModulePath) (signature : Tree) :
    Except TypeFault Descriptor :=
  match signature.resultType? with
  | none => .ok .noValue
  | some type => resolve catalog module type

/-! ### Borrowing -/

mutual

/-- Whether a type borrows: it holds a reference, or a lifetime other than `'static`. -/
def borrows : Tree → Bool
  | .token _ => false
  | .node .unread _ => false
  | .node .arguments _ => false
  | .node .typeReference _ => true
  | .node .lifetime [.token (.lifetime name)] => name != "'static"
  | .node _ children => anyBorrows children

def anyBorrows : List Tree → Bool
  | [] => false
  | tree :: rest => borrows tree || anyBorrows rest

end

theorem anyBorrows_eq_any (trees : List Tree) : anyBorrows trees = trees.any borrows := by
  induction trees with
  | nil => rfl
  | cons first rest ih => simp [anyBorrows, ih]

def isBorrowed (signature : Tree) : Bool :=
  match signature.resultType? with
  | none => false
  | some type => borrows type

end ResultType

end TestDouble
