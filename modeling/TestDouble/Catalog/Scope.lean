import TestDouble.Name
import TestDouble.Source.View
/-!
# What one module declares and imports

Of several declarations of one name the last one counts, so the lists of named things are kept with the
newest first.
-/

namespace TestDouble

/-- One name, or all names, that an import brings in. -/
inductive Binding where
  | named (name : String) (path : List String)
  | all (path : List String)

namespace Binding

mutual

/-- What an import tree brings in, below the names that lead to it. -/
def ofTree (above : List String) : Tree → List Binding
  | .node .usePath [.token (.ident name), _, tree] => ofTree (above ++ [name]) tree
  | .node .useName [.token (.ident name)] =>
    if name = "self" then (above.getLast?.map fun last => named last above).toList
    else [named name (above ++ [name])]
  | .node .useRename [.token (.ident name), _, .token (.ident own)] => [named own (above ++ [name])]
  | .node .useGlob _ => [all above]
  | .node .useGroup [.node (.group .brace) trees] => ofTrees above trees
  | _ => []

def ofTrees (above : List String) : List Tree → List Binding
  | [] => []
  | tree :: rest => ofTree above tree ++ ofTrees above rest

end

theorem ofTrees_eq_flatMap (above : List String) (trees : List Tree) :
    ofTrees above trees = trees.flatMap (ofTree above) := by
  induction trees with
  | nil => rfl
  | cons first rest ih => simp [ofTrees, ih]

end Binding

/-- The items of one module, as far as the analysis needs them. -/
structure Scope where
  traits : List (String × TraitItem) := []
  /-- Declared types; an alias comes with the type it stands for. -/
  types : List (String × Option Tree) := []
  modules : List String := []
  imports : List (String × List String) := []
  /-- The paths of glob imports, in the order of the source. -/
  globs : List (List String) := []
  /-- The constant items, in the order of the source. -/
  constants : List Tree := []

namespace Scope

def bind (scope : Scope) : Binding → Scope
  | .named name path => { scope with imports := (name, path) :: scope.imports }
  | .all path => { scope with globs := scope.globs ++ [path] }

def addItem (scope : Scope) (item : Tree) : Scope :=
  match item with
  | .node .itemTrait _ =>
    match item.asTrait? with
    | some found => { scope with traits := (found.name, found) :: scope.traits }
    | none => scope
  | .node .itemStruct (_ :: _ :: _ :: .token (.ident name) :: _)
  | .node .itemEnum (_ :: _ :: _ :: .token (.ident name) :: _)
  | .node .itemUnion (_ :: _ :: _ :: .token (.ident name) :: _) =>
    { scope with types := (name, none) :: scope.types }
  | .node .itemType [_, _, _, .token (.ident name), _, _, _, _, type, _, _] =>
    { scope with types := (name, some type) :: scope.types }
  | .node .itemConst _ => { scope with constants := scope.constants ++ [item] }
  | .node .itemUse [_, _, _, _, tree, _] => (Binding.ofTree [] tree).foldl bind scope
  | .node .itemMod (_ :: _ :: _ :: _ :: .token (.ident name) :: _) =>
    { scope with modules := name :: scope.modules }
  | _ => scope

def ofItems (items : List Tree) : Scope := items.foldl addItem {}

end Scope

end TestDouble
