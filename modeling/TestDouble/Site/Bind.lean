import TestDouble.Site.Basic
import TestDouble.Catalog.Basic
import TestDouble.Source.Canonical
/-!
# Binding creation sites

In the tests whose keys are known, every creation site is bound to the dispatcher: its callee becomes the
full path from the module of the test, and the key becomes its only argument. In all tests,
configurations are erased, since the configured values are part of the generated types. A creation site
outside of a test is reported.
-/

namespace TestDouble

/-- Where a walk over the annotated module stands. -/
structure Place where
  module : ModulePath
  /-- The key of the function around it, and whether that function is a test. -/
  function : Option (String × Bool)

namespace Place

def inTest (place : Place) : Bool := (place.function.map (·.2)).getD false

/-- The key of the function around a place, or the path of its module. -/
def key (root : String) (place : Place) : String :=
  match place.function with
  | some (key, _) => key
  | none => "::".intercalate (root :: place.module)

/-- The place inside a node, for its children. -/
def inside (root : String) (place : Place) (node : Tree) : Place :=
  match node with
  | .node .itemMod (_ :: _ :: _ :: _ :: .token (.ident name) :: _) =>
    { place with module := place.module ++ [name] }
  | .node .itemFn _ =>
    match node.asFunction? with
    | some function =>
      { place with function := some (Name.key root place.module function.name, Catalog.isTest function) }
    | none => place
  | .node .implFn [_, _, _, signature, _] =>
    { place with function := some (Name.key root place.module signature.signatureName, false) }
  | _ => place

end Place

/-- What binding needs to know. -/
structure Binder where
  settings : Settings
  root : String
  /-- The keys of the tests that have a specification. -/
  keys : List String

namespace Binder

/-- A part of the module after binding, with the problems found in it. -/
abbrev Bound := Tree × List Problem

/-- The empty tuple, which takes the place of a configuration. -/
def unit : Tree := .node .tuple [.node .attributes [], .group .paren []]

/-- The callee that creates the double of a test, with the arguments of the given last segment. -/
def callee (binder : Binder) (place : Place) (last : Tree) : Tree :=
  let names := Name.toRoot place.module.length ++ [Name.aggregate, binder.settings.dispatcher]
  let segments := names.map (fun name => Tree.node .segment [Tree.ident name]) ++ [last]
  .node .pathExpr [.node .attributes [], .node .path (Tree.absent :: segments.intersperse (Tree.punct "::"))]

/-- A creation site bound to a key; `last` is the last segment of the path that was called. -/
def boundCall (binder : Binder) (place : Place) (key : String) (attributes last : Tree) : Tree :=
  .node .call [attributes, binder.callee place last,
    .group .paren [.node .literal [.node .attributes [], .token (.literal (Text.stringLiteral key))]]]

def isConfiguration (settings : Settings) (node : Tree) : Bool :=
  match node.asMethodCall? with
  | some call => (settings.configuredMethod? call).isSome
  | none => false

/-- The arguments of an invocation after binding, in canonical form if they changed. -/
def invocationArguments (children : List Tree) (bound : List Tree) : Tree :=
  let after := Tree.canonicalAll bound
  if Tree.tokensAll after = Tree.tokensAll (Tree.canonicalAll children) then .node .arguments children
  else .node .arguments after

/--
A node after binding, given its children before and after. A creation site keeps its attributes and the
last segment of the path that it calls, given apart; what stood before that segment is gone.
-/
def assemble (binder : Binder) (place : Place) (kind : Kind) (children : List Tree) (bound : List Bound)
    (last : Option Bound) : Bound :=
  let node := Tree.node kind children
  let plain : Bound := (.node kind (bound.map (·.1)), bound.flatMap (·.2))
  match kind with
  | .arguments => (invocationArguments children plain.1.children, plain.2)
  | .methodCall => if place.inTest && isConfiguration binder.settings node then (unit, []) else plain
  | .call =>
    if (node.asCall?.map binder.settings.isMarker).getD false then
      match place.function with
      | some (key, true) =>
        match bound, last with
        | attributes :: _, some last =>
          if binder.keys.contains key then
            (binder.boundCall place key attributes.1 last.1, attributes.2 ++ last.2)
          else plain
        | _, _ => plain
      | _ => (plain.1, .noSpecification (place.key binder.root) :: plain.2)
    else plain
  | _ => plain

mutual

def bind (binder : Binder) (place : Place) : Tree → Bound
  | .token t => (.token t, [])
  | .node kind children =>
    let inside := place.inside binder.root (.node kind children)
    binder.assemble place kind children (binder.bindAll inside children) (binder.bindLast inside children)

def bindAll (binder : Binder) (place : Place) : List Tree → List Bound
  | [] => []
  | tree :: rest => binder.bind place tree :: binder.bindAll place rest

/-- The last segment of the path that a call with these children calls, after binding. -/
def bindLast (binder : Binder) (place : Place) : List Tree → Option Bound
  | [_, .node .pathExpr [_, .node .path children], _] =>
    ((binder.bindAll place children).filter fun bound => bound.1.kind? == some .segment).getLast?
  | _ => none

end

theorem bindAll_eq_map (binder : Binder) (place : Place) (trees : List Tree) :
    binder.bindAll place trees = trees.map (binder.bind place) := by
  induction trees with
  | nil => rfl
  | cons first rest ih => simp [bindAll, ih]

end Binder

/-- Binds the creation sites of a module, and reports those outside of tests. -/
def bindSites (settings : Settings) (keys : List String) (module : Tree) : Tree × List Problem :=
  match module with
  | .node .itemMod [attributes, visibility, unsafety, word, .token (.ident name),
      .node (.group .brace) (inner :: items)] =>
    let binder : Binder := { settings, root := name, keys }
    let bound := binder.bindAll ⟨[], none⟩ items
    (.node .itemMod [attributes, visibility, unsafety, word, Tree.ident name,
      .group .brace (inner :: bound.map (·.1))], bound.flatMap (·.2))
  | _ => (module, [])

end TestDouble
