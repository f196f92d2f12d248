import TestDouble.Site.Bind
/-!
# The callees of bound creation sites

While creation sites are bound, the callee of each is put together from the path to the dispatcher and the last
segment that the site was written with. Here these callees are collected, in the order in which they are made.
-/

namespace TestDouble

namespace Binder

/-- Whether a node is a creation site that is bound to the key of the test around it. -/
def isBound (binder : Binder) (place : Place) (node : Tree) : Bool :=
  (node.asCall?.map binder.settings.isMarker).getD false &&
    match place.function with
    | some (key, true) => binder.keys.contains key
    | _ => false

mutual

/-- The callees made in a tree. What is erased, and what stood before the last segment of a bound path, has none. -/
def callees (binder : Binder) (place : Place) : Tree → List Tree
  | .token _ => []
  | .node kind children =>
    let node := Tree.node kind children
    if place.inTest && isConfiguration binder.settings node then []
    else if binder.isBound place node then binder.calleesBound place children
    else binder.calleesAll (place.inside binder.root node) children

def calleesAll (binder : Binder) (place : Place) : List Tree → List Tree
  | [] => []
  | tree :: rest => binder.callees place tree ++ binder.calleesAll place rest

/-- The callees made for a bound call with these children: its own, and those of the parts that it keeps. -/
def calleesBound (binder : Binder) (place : Place) : List Tree → List Tree
  | [attributes, .node .pathExpr [_, .node .path children], _] =>
    binder.callees place attributes ++ binder.calleesLast place children
  | _ => []

/-- The callee made of the last segment among the children of a path, and those made in that segment. -/
def calleesLast (binder : Binder) (place : Place) : List Tree → List Tree
  | [] => []
  | part :: rest =>
    if rest.any fun tree => tree.kind? == some .segment then binder.calleesLast place rest
    else if part.kind? == some .segment then binder.callee place part :: binder.callees place part
    else []

end

end Binder

/-- The callees that are put together while the creation sites of a module are bound. -/
def boundCallees (settings : Settings) (keys : List String) (module : Tree) : List Tree :=
  match module with
  | .node .itemMod [_, _, _, _, .token (.ident name), .node (.group .brace) (_ :: items)] =>
    Binder.calleesAll { settings, root := name, keys } ⟨[], none⟩ items
  | _ => []

end TestDouble
