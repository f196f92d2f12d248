import TestDouble.Proofs.Catalog.Declared
import TestDouble.Proofs.Import.Denotation
/-!
# Climbing paths

A path that climbs some modules and then goes on with a name is read from the module so many levels up, both when it
is resolved and when its import is computed. A `self` in front makes no difference to the import. Resolving takes the
`super` behind a `self` for the name of an item instead, so such a path only leads through the imports of the module
that it is written in.
-/

namespace TestDouble

namespace Catalog

variable {catalog : Catalog} {module : ModulePath}

theorem resolve_supers {steps : Nat} (inside : steps ≤ module.length) {name : String} (plain : name ∉ Name.anchors)
    (further : List String) :
    catalog.resolve module (List.replicate steps "super" ++ name :: further) =
      catalog.resolve (module.take (module.length - steps)) (name :: further) := by
  rw [resolve, resolve, maxImports, resolveWithin, resolveWithin, normalize_supers inside plain,
    normalize_plain plain]

theorem resolve_self {name : String} (plain : name ∉ Name.anchors) (further : List String) :
    catalog.resolve module ("self" :: name :: further) = catalog.resolve module (name :: further) := by
  rw [resolve, resolve, maxImports, resolveWithin, resolveWithin, normalize_plain plain]
  rfl

/-- Behind `self`, a `super` with more behind it is looked for among the imports of the module. -/
theorem resolve_self_super (named : catalog.Named) {scope : Scope} (found : catalog.scope? module = some scope)
    {rest : List String} (more : rest ≠ []) :
    catalog.resolve module ("self" :: "super" :: rest) =
      imported (catalog.resolveWithin 16 module) module scope ("super" :: rest) := by
  obtain ⟨second, further, rfl⟩ := List.exists_cons_of_ne_nil more
  have undeclared : scope.modules.contains "super" = false := by
    rw [← Bool.not_eq_true, List.contains_iff_mem]
    exact fun declared => (named _ _ found).modules _ declared (by decide)
  have normal : normalize module ("self" :: "super" :: second :: further) =
      some (module, "super" :: second :: further) := rfl
  have blocked : catalog.walk module ("super" :: second :: further) =
      some (.blocked module ("super" :: second :: further)) := by
    rw [walk_step, found, Option.bind_some, undeclared]
    rfl
  rw [resolve, maxImports, resolveWithin_blocked normal blocked, found, Option.bind_some]

end Catalog

namespace Import
open Catalog

/--
A path that climbs some modules and goes on with a name is resolved from the module so many levels up, and its import
is that of the name there, also behind a `self`. Behind a `self` the path resolves alike if it does not climb. If it
does, only what the module itself imports counts: in a module that imports nothing as `super`, the first glob import
from which the whole path leads on, and without glob imports nothing.
-/
theorem resolve_climbing {module : Tree} {catalog : Catalog} (formed : module.wellFormed = true)
    (collected : ofModule module = .ok catalog) {path : ModulePath} {scope : Scope}
    (found : catalog.scope? path = some scope) {steps : Nat} (inside : steps ≤ path.length) {name : String}
    (plain : name ∉ Name.anchors) {further segments : List String}
    (written : segments = List.replicate steps "super" ++ name :: further) {start : ModulePath}
    (above : start = path.take (path.length - steps)) :
    catalog.resolve path segments = catalog.resolve start (name :: further) ∧
      ofPath catalog path segments = ofName catalog start name ∧
      ofPath catalog path ("self" :: segments) = ofName catalog start name ∧
      (steps = 0 → catalog.resolve path ("self" :: segments) = catalog.resolve start (name :: further)) ∧
      (0 < steps →
        catalog.resolve path ("self" :: segments) =
          imported (catalog.resolveWithin 16 path) path scope segments ∧
        (scope.imports.lookup "super" = none →
          catalog.resolve path ("self" :: segments) =
            scope.globs.findSome? fun glob => catalog.resolveWithin 16 path (glob ++ segments)) ∧
        (scope.imports.lookup "super" = none → scope.globs = [] →
          (catalog.resolve path ("self" :: segments) = catalog.resolve path segments ↔
            catalog.resolve start (name :: further) = none))) := by
  subst written above
  have climbs : catalog.resolve path (List.replicate steps "super" ++ name :: further) = _ :=
    resolve_supers inside plain further
  have import_ (lead : List String) (optional : lead = [] ∨ lead = ["self"]) :=
    ofPath_climbing catalog path optional steps plain further
  rw [if_neg (Nat.not_lt.mpr inside)] at import_
  refine ⟨climbs, import_ [] (.inl rfl), import_ ["self"] (.inr rfl), ?_, ?_⟩
  · rintro rfl
    rw [Nat.sub_zero, List.take_length]
    exact resolve_self plain further
  · intro climbing
    obtain ⟨fewer, rfl⟩ := Nat.exists_eq_add_one.mpr climbing
    have named := named_of_collected formed collected
    have more : List.replicate fewer "super" ++ name :: further ≠ [] := by simp
    have through := resolve_self_super named found more
    rw [← List.cons_append, ← List.replicate_succ] at through
    have globs (unbound : scope.imports.lookup "super" = none) :
        imported (catalog.resolveWithin 16 path) path scope (List.replicate (fewer + 1) "super" ++ name :: further) =
          scope.globs.findSome? fun glob =>
            catalog.resolveWithin 16 path (glob ++ (List.replicate (fewer + 1) "super" ++ name :: further)) := by
      rw [List.replicate_succ, List.cons_append, imported, unbound]
    refine ⟨through, fun unbound => through.trans (globs unbound), fun unbound none => ?_⟩
    rw [through, globs unbound, none, List.findSome?_nil, climbs]
    exact eq_comm

/-- Two modules that declare a type of the same name, and one that imports everything from the module above it. -/
def nestedItems : List Tree :=
  let glob := Tree.node .itemUse [Tree.noAttributes, Tree.absent, Tree.ident "use", Tree.absent,
    .node .usePath [Tree.ident "super", Tree.punct "::", .node .useGlob [Tree.punct "*"]], Tree.punct ";"]
  [Tree.aliasItem "Item" (Tree.namedType ["u16"]),
    Tree.inlineModule "outer" [Tree.aliasItem "Item" (Tree.namedType ["u8"]),
      Tree.aliasItem "Own" (Tree.namedType ["u8"]), Tree.inlineModule "wire" [glob]]]

/-- The `self` leads through the glob import, to the module above. -/
theorem resolve_climbing_nested :
    ofPath (.ofItems "samples" nestedItems) ["outer", "wire"] ["self", "super", "Item"] =
        ofPath (.ofItems "samples" nestedItems) ["outer", "wire"] ["super", "Item"] ∧
      (Catalog.ofItems "samples" nestedItems).resolve ["outer", "wire"] ["self", "super", "Item"] =
        (Catalog.ofItems "samples" nestedItems).resolveWithin 16 ["outer", "wire"] ["super", "super", "Item"] := by
  have formed : (Tree.inlineModule "samples" nestedItems).wellFormed = true := by decide
  have found : (Catalog.ofItems "samples" nestedItems).scope? ["outer", "wire"] = some _ := rfl
  obtain ⟨_, straight, behind, _, climbing⟩ :=
    resolve_climbing formed rfl found (by decide : 1 ≤ 2) (by decide : "Item" ∉ Name.anchors) rfl rfl
  obtain ⟨_, globs, _⟩ := climbing Nat.one_pos
  refine ⟨behind.trans straight.symm, (globs rfl).trans ?_⟩
  rfl

/-- What `super` finds, `self` and `super` do not find, or they find something else under its name. -/
theorem resolve_misled :
    (Tree.inlineModule "samples" nestedItems).wellFormed = true ∧
      (Catalog.ofItems "samples" nestedItems).resolve ["outer", "wire"] ["super", "Own"] =
        some (.type ["outer"] "Own" (some (Tree.namedType ["u8"]))) ∧
      (Catalog.ofItems "samples" nestedItems).resolve ["outer", "wire"] ["self", "super", "Own"] = none ∧
      (Catalog.ofItems "samples" nestedItems).resolve ["outer", "wire"] ["super", "Item"] =
        some (.type ["outer"] "Item" (some (Tree.namedType ["u8"]))) ∧
      (Catalog.ofItems "samples" nestedItems).resolve ["outer", "wire"] ["self", "super", "Item"] =
        some (.type [] "Item" (some (Tree.namedType ["u16"]))) :=
  ⟨by decide, rfl, rfl, rfl, rfl⟩

end Import

end TestDouble
