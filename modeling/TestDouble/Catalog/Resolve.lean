import TestDouble.Catalog.Basic
/-!
# Resolving paths

A path is read from a module: leading `self` or `super` move the starting point, then declared items
come before named imports and these before glob imports. Every import that is followed costs one of a
fixed number of steps, so imports that lead in a circle resolve to nothing.
-/

namespace TestDouble

/-- What a path resolves to. -/
inductive Target where
  | trait (module : ModulePath) (item : TraitItem)
  | type (module : ModulePath) (name : String) (aliased : Option Tree)
  | module (path : ModulePath)
  /-- An import from outside: the name bound in a module, and the path as written there. -/
  | external (module : ModulePath) (name : String) (path : List String)

namespace Catalog

/-- Goes up one module for every leading `super`; there is nothing above the annotated module. -/
def climb (current : ModulePath) : List String → Option (ModulePath × List String)
  | [] => some (current, [])
  | segment :: rest =>
    if segment = "super" then
      if current.isEmpty then none else climb current.dropLast rest
    else some (current, segment :: rest)

/-- The starting point of a path and what is left of it; `none` if it leaves the annotated module. -/
def normalize (module : ModulePath) (segments : List String) : Option (ModulePath × List String) :=
  let start : Option (ModulePath × List String) :=
    match segments with
    | "self" :: rest => some (module, rest)
    | "crate" :: _ => none
    | _ => climb module segments
  start.filter fun found => !found.2.isEmpty

inductive Walk where
  /-- At the module that should declare the last name. -/
  | arrived (module : ModulePath) (name : String)
  /-- At a module that does not declare the next name as a module. -/
  | blocked (module : ModulePath) (rest : List String)

/-- Follows declared modules down a path; `none` if one of them has no scope. -/
def walk (catalog : Catalog) (current : ModulePath) : List String → Option Walk
  | [] => none
  | [name] => some (.arrived current name)
  | segment :: rest =>
    (catalog.scope? current).bind fun scope =>
      if scope.modules.contains segment then catalog.walk (current ++ [segment]) rest
      else some (.blocked current (segment :: rest))

def declaredIn (module : ModulePath) (scope : Scope) (name : String) : Option Target :=
  match scope.traits.lookup name with
  | some item => some (.trait module item)
  | none =>
    match scope.types.lookup name with
    | some aliased => some (.type module name aliased)
    | none => if scope.modules.contains name then some (.module (module ++ [name])) else none

/-- Resolves names through the imports of a scope; `resolve` reads the path of an import. -/
def imported (resolve : List String → Option Target) (module : ModulePath) (scope : Scope) :
    List String → Option Target
  | [] => none
  | first :: rest =>
    match scope.imports.lookup first with
    | some path => (resolve (path ++ rest)).or (some (.external module first path))
    | none => scope.globs.findSome? fun glob => resolve (glob ++ first :: rest)

/-- Resolves a path, following at most so many imports less one. -/
def resolveWithin (catalog : Catalog) : (fuel : Nat) → ModulePath → List String → Option Target
  | 0, _, _ => none
  | fuel + 1, module, segments =>
    (normalize module segments).bind fun (start, rest) =>
      (catalog.walk start rest).bind fun
        | .arrived current name =>
          (catalog.scope? current).bind fun scope =>
            (declaredIn current scope name).or
              (imported (catalog.resolveWithin fuel current) current scope [name])
        | .blocked current rest =>
          (catalog.scope? current).bind fun scope =>
            imported (catalog.resolveWithin fuel current) current scope rest

/-- How many imports may be followed, and one. -/
def maxImports : Nat := 17

/-- What a path, as written inside a module, resolves to. -/
def resolve (catalog : Catalog) (module : ModulePath) (segments : List String) : Option Target :=
  catalog.resolveWithin maxImports module segments

end Catalog

end TestDouble
