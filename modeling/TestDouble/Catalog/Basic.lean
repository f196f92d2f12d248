import TestDouble.Catalog.Scope
import TestDouble.Problem
/-!
# The catalog of an annotated module

The catalog holds the scope of every module whose content is given in place, and the test functions that
stand directly in one of them, in the order of the source.
-/

namespace TestDouble

/-- A test function and the module it stands in. -/
structure Test where
  module : ModulePath
  function : Function

/-- What is known of an annotated module. -/
structure Catalog where
  root : String
  /-- The scopes in the order in which their modules end. -/
  scopes : List (ModulePath × Scope)
  tests : List Test

namespace Catalog

/-- Whether a function is a test: the last name of an attribute's path is `test`. -/
def isTest (function : Function) : Bool :=
  function.attributes.any fun attr =>
    match attr.attributePath? with
    | some path => (path.names.getLast?.map (· == "test")).getD false
    | none => false

mutual

def scopesOf (path : ModulePath) : Tree → List (ModulePath × Scope)
  | .node .itemMod [_, _, _, _, .token (.ident name), .node (.group .brace) (_ :: items)] =>
    scopesBelow (path ++ [name]) items ++ [(path ++ [name], Scope.ofItems items)]
  | _ => []

def scopesBelow (path : ModulePath) : List Tree → List (ModulePath × Scope)
  | [] => []
  | item :: rest => scopesOf path item ++ scopesBelow path rest

end

theorem scopesBelow_eq_flatMap (path : ModulePath) (items : List Tree) :
    scopesBelow path items = items.flatMap (scopesOf path) := by
  induction items with
  | nil => rfl
  | cons first rest ih => simp [scopesBelow, ih]

mutual

def testsOf (path : ModulePath) : Tree → List Test
  | .node .itemMod [_, _, _, _, .token (.ident name), .node (.group .brace) (_ :: items)] =>
    testsIn (path ++ [name]) items
  | .node .itemFn children =>
    match (Tree.node .itemFn children).asFunction? with
    | some function => if isTest function then [⟨path, function⟩] else []
    | none => []
  | _ => []

def testsIn (path : ModulePath) : List Tree → List Test
  | [] => []
  | item :: rest => testsOf path item ++ testsIn path rest

end

theorem testsIn_eq_flatMap (path : ModulePath) (items : List Tree) :
    testsIn path items = items.flatMap (testsOf path) := by
  induction items with
  | nil => rfl
  | cons first rest ih => simp [testsIn, ih]

def ofItems (root : String) (items : List Tree) : Catalog where
  root := root
  scopes := scopesBelow [] items ++ [([], Scope.ofItems items)]
  tests := testsIn [] items

/-- The catalog of a module, which must have its content in place. -/
def ofModule (module : Tree) : Except Problem Catalog :=
  match module.asModule? with
  | some { name, items := some items } => .ok (ofItems name items)
  | _ => .error (.unresolvableContract
      "`ghost` can only be applied to an inline module (`mod name \x7b ... \x7d`)")

/-- The scope of a module; of several modules of one path the last one counts. -/
def scope? (catalog : Catalog) (module : ModulePath) : Option Scope :=
  catalog.scopes.reverse.lookup module

def constants (catalog : Catalog) (module : ModulePath) : List Tree :=
  ((catalog.scope? module).map Scope.constants).getD []

end Catalog

end TestDouble
