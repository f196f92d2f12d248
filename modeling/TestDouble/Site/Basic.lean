import TestDouble.Settings
/-!
# Creation sites and configurations

In the body of a test, a call `Ghost::of::<dyn Trait>()` creates a double, and `<expr>.method().returns(v)`
configures what a method returns. Both are looked for in the whole body, in the order in which the
source nests: an expression comes before its parts. Items inside the body are not part of it; what an
invocation is given is, if it reads as expressions.
-/

namespace TestDouble

def Settings.isMarker (settings : Settings) (call : Call) : Bool :=
  match call.callee with
  | .node .pathExpr [_, .node .path children] =>
    let path := Tree.node .path children
    !path.isRootPath && path.names == [settings.dispatcher, "of"]
  | _ => false

/-- The method that a call configures, if it is a configuration. -/
def Settings.configuredMethod? (settings : Settings) (call : MethodCall) : Option String :=
  if call.name = settings.returns then call.receiver.asMethodCall?.map MethodCall.name else none

inductive Site where
  | marker (call : Call)
  /-- A configuration of a method, with its first argument. -/
  | configuration (method : String) (value : Option Tree)

namespace Site

/-- The kinds of items and of methods in them, which are no part of the body around them. -/
def isItem : Kind → Bool
  | .itemFn | .itemMod | .itemTrait | .itemImpl | .itemConst | .itemStatic | .itemStruct | .itemEnum
  | .itemUnion | .itemType | .itemUse | .itemInvocation | .itemCrate | .itemForeign | .itemTraitAlias
  | .itemVerbatim | .implFn => true
  | _ => false

def ofNode (settings : Settings) (tree : Tree) : Option Site :=
  match tree.asCall? with
  | some call => if settings.isMarker call then some (marker call) else none
  | none =>
    match tree.asMethodCall? with
    | some call =>
      (settings.configuredMethod? call).map fun method => configuration method call.arguments.elements.head?
    | none => none

mutual

/-- Everything found in a tree, an expression before its parts. -/
def ofTree (settings : Settings) : Tree → List Site
  | .token _ => []
  | .node kind children =>
    if isItem kind then []
    else (ofNode settings (.node kind children)).toList ++ ofTrees settings children

def ofTrees (settings : Settings) : List Tree → List Site
  | [] => []
  | tree :: rest => ofTree settings tree ++ ofTrees settings rest

end

theorem ofTrees_eq_flatMap (settings : Settings) (trees : List Tree) :
    ofTrees settings trees = trees.flatMap (ofTree settings) := by
  induction trees with
  | nil => rfl
  | cons first rest ih => simp [ofTrees, ih]

end Site

structure Sites where
  found : List Site

namespace Sites

def ofBody (settings : Settings) (body : Tree) : Sites :=
  ⟨Site.ofTrees settings body.statements⟩

def markers (sites : Sites) : List Call :=
  sites.found.filterMap fun
    | .marker call => some call
    | .configuration .. => none

/-- The creation site that the specification is built from. -/
def marker? (sites : Sites) : Option Call := sites.markers.head?

/-- The configurations, in the order in which they were found. -/
def configurations (sites : Sites) : List (String × Option Tree) :=
  sites.found.filterMap fun
    | .marker _ => none
    | .configuration method value => some (method, value)

/-- The last configuration of a method: `none` if there is none, else its argument. -/
def configured? (sites : Sites) (method : String) : Option (Option Tree) :=
  sites.configurations.reverse.lookup method

/-- The names of the configured methods, in ascending order. -/
def configuredMethods (sites : Sites) : List String :=
  ((sites.configurations.map (·.1)).eraseDups).mergeSort fun left right => decide (left ≤ right)

end Sites

end TestDouble
