import TestDouble.Catalog.Resolve
import TestDouble.WellKnown
/-!
# Imports of a generated unit

A unit stands directly in the annotated module and repeats the signatures of a contract that may stand
elsewhere. `surface` collects what it has to import for the names in a signature, and `rebase` moves the
relative paths of the signature so that they mean the same there.
-/

namespace TestDouble

namespace Import

/-- What is left of a path once `self` and `super` are followed upwards. -/
structure Ascent where
  module : ModulePath
  /-- How many steps lead out of the annotated module. -/
  escaped : Nat
  rest : List String

/-- Follows every leading `super`. -/
def ascend (module : ModulePath) (escaped : Nat) : List String → Ascent
  | [] => ⟨module, escaped, []⟩
  | segment :: rest =>
    if segment = "super" then
      if module.isEmpty then ascend module (escaped + 1) rest else ascend module.dropLast escaped rest
    else ⟨module, escaped, segment :: rest⟩

/-- The path of a name of a module, seen from the unit; some steps may lead out of the annotated module. -/
def fromRoot (escaped : Nat) (module : ModulePath) (name : String) : ImportPath :=
  ⟨List.replicate (escaped + 1) "super" ++ module ++ [name]⟩

/-- Whether an import path means the same wherever it stands. -/
def isAbsolute (path : List String) : Bool :=
  (path.head?.map fun first => (WellKnown.standardCrates ++ ["crate"]).contains first).getD false

/-- The import of the first name of a path as written in a module. -/
def ofPath (catalog : Catalog) (module : ModulePath) (segments : List String) : Option ImportPath :=
  let segments := match segments with
    | "self" :: rest => rest
    | all => all
  let ascent := ascend module 0 segments
  match ascent.rest with
  | [] => none
  | name :: _ =>
    if 0 < ascent.escaped then some (fromRoot ascent.escaped ascent.module name)
    else
      match catalog.resolve ascent.module [name] with
      | some (.trait module item) => some (fromRoot 0 module item.name)
      | some (.type module own _) => some (fromRoot 0 module own)
      | some (.module path) => path.getLast?.map fun own => fromRoot 0 path.dropLast own
      | some (.external _ own path) =>
        if isAbsolute path && path.getLast? = some own then some ⟨path⟩
        else some (fromRoot 0 ascent.module name)
      | none => some (fromRoot 0 ascent.module name)

/-! ### Collecting -/

mutual

/-- The paths in a tree, outside of invocations. -/
def paths : Tree → List Tree
  | .token _ => []
  | .node .invocation _ => []
  | .node .path children => .node .path children :: pathsAll children
  | .node _ children => pathsAll children

def pathsAll : List Tree → List Tree
  | [] => []
  | tree :: rest => paths tree ++ pathsAll rest

end

theorem pathsAll_eq_flatMap (trees : List Tree) : pathsAll trees = trees.flatMap paths := by
  induction trees with
  | nil => rfl
  | cons first rest ih => simp [pathsAll, ih]

def isRelative (segment : String) : Bool := segment == "self" || segment == "super"

/-- Whether a path needs an import: it does not begin at a root, and its first name is neither a
parameter nor usable anywhere. -/
def needsImport (parameters : List String) (path : Tree) : Bool :=
  let names := path.names
  match names.head?, names.find? fun name => !isRelative name with
  | some head, some first =>
    !path.isRootPath && !(head = first && WellKnown.isPrelude first) && !parameters.contains first
  | _, _ => false

/-- The imports that a signature needs, in no particular order. -/
def needed (catalog : Catalog) (module : ModulePath) (signature : Tree) : List ImportPath :=
  let parameters := match signature.asSignature? with
    | some view => view.generics.parameters.filterMap Tree.parameterName?
    | none => []
  ((paths signature).filter (needsImport parameters)).filterMap fun path => ofPath catalog module path.names

/-- The imports that a signature needs, in ascending order. -/
def surface (catalog : Catalog) (module : ModulePath) (signature : Tree) : List ImportPath :=
  ImportPath.sorted (needed catalog module signature)

/-! ### Moving paths -/

/-- How many segments of a path stand inside a qualified type, that is, before its `>`. -/
def enclosed (children : List Tree) : Option Nat :=
  if children.any (Tree.isPunct ">") then
    some ((children.takeWhile fun t => !t.isPunct ">").filter fun t => t.kind? == some .segment).length
  else none

/-- Segments with `::` between them, and the `>` of a qualified type behind so many of them. -/
def join (closing : Option Nat) (segments : List Tree) : List Tree :=
  let separated := segments.intersperse (Tree.punct "::")
  match closing with
  | none => separated
  | some count =>
    let before := 2 * (min count segments.length) - 1
    separated.take before ++ Tree.punct ">" :: separated.drop before

/-- The segments of a relative path as seen from the unit. -/
def movedSegments (catalog : Catalog) (module : ModulePath) (segments : List Tree) : List Tree :=
  let names := segments.map Tree.segmentName
  let leading := (names.takeWhile isRelative).length
  match ofPath catalog module names with
  | none => segments
  | some found =>
    -- an import under another name is replaced by the path of the item it names
    let kept := found.segments.getLast? = names[leading]?
    let front := if kept then found.segments.dropLast else found.segments
    let behind := segments.drop (if kept then leading else leading + 1)
    front.map (fun name => .node .segment [Tree.ident name]) ++ behind

/-- A path as seen from the unit, if it begins with `self` or `super`. -/
def movePath (catalog : Catalog) (module : ModulePath) (children : List Tree) : List Tree :=
  let path := Tree.node .path children
  if !path.isRootPath && (path.names.head?.map isRelative).getD false then
    Tree.absent :: join (enclosed children) (movedSegments catalog module path.segments)
  else children

mutual

/-- A tree with its relative paths as seen from the unit; invocations stay as they are. -/
def rebase (catalog : Catalog) (module : ModulePath) : Tree → Tree
  | .token t => .token t
  | .node .invocation children => .node .invocation children
  | .node .path children => .node .path (movePath catalog module (rebaseAll catalog module children))
  | .node kind children => .node kind (rebaseAll catalog module children)

def rebaseAll (catalog : Catalog) (module : ModulePath) : List Tree → List Tree
  | [] => []
  | tree :: rest => rebase catalog module tree :: rebaseAll catalog module rest

end

theorem rebaseAll_eq_map (catalog : Catalog) (module : ModulePath) (trees : List Tree) :
    rebaseAll catalog module trees = trees.map (rebase catalog module) := by
  induction trees with
  | nil => rfl
  | cons first rest ih => simp [rebaseAll, ih]

end Import

end TestDouble
