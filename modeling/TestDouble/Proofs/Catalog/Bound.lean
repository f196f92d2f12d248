import TestDouble.Proofs.Catalog.Keys
import TestDouble.Proofs.Site.Cleared
/-!
# The tests of a bound module

Binding changes what stands in functions and keeps everything by which tests are collected. So the tests of a
bound module are those of the module before, each with its parts bound at the place of its function.
-/

namespace TestDouble

namespace Tree

/-- The kinds of nodes that binding takes away, makes or puts together in a form of its own. -/
def isRebound : Kind → Bool
  | .call | .methodCall | .arguments | .tuple => true
  | _ => false

theorem body_shape {body : Tree} (braced : body.isBody = true) :
    ∃ inner statements, body = group .brace (.node .attributes inner :: statements) := by
  unfold isBody at braced
  split at braced
  · exact ⟨_, _, rfl⟩
  · cases braced

theorem signature_shape {children : List Tree} (shape : isSignature children = true) :
    ∃ constness asyncness unsafety abi word name generics inputs output condition,
      children = [constness, asyncness, unsafety, abi, word, ident name, generics, inputs, output, condition] := by
  obtain ⟨long, named⟩ := Bool.and_eq_true_iff.mp shape
  match children, eq_of_beq long with
  | [_, _, _, _, _, _, _, _, _, _], _ =>
      obtain ⟨name, rfl⟩ := isDeclared_exists named
      exact ⟨_, _, _, _, _, name, _, _, _, _, rfl⟩

theorem soundAll_content {item : Tree} {name : String} {content : List Tree} (sound : item.sound = true)
    (inline : item.asModule? = some ⟨name, some content⟩) : soundAll content = true := by
  obtain ⟨attributes, visibility, unsafety, word, inner, rfl⟩ := inline_module_shape inline
  have parts := soundAll_children sound rfl rfl
  simp only [children_node, soundAll_cons, sound_group, Bool.and_eq_true] at parts
  exact parts.2.2.2.2.2.1.2

end Tree

theorem Inline.soundAll {items content : List Tree} {path : ModulePath} (reached : Inline items path content)
    (sound : Tree.soundAll items = true) : Tree.soundAll content = true := by
  induction reached with
  | here items => exact sound
  | inner member module _ ih =>
      rw [Tree.soundAll_eq_all, List.all_eq_true] at sound
      exact ih (Tree.soundAll_content (sound _ member) module)

/-- A function with the parts that reading source yields. -/
structure Function.Sound (function : Function) : Prop where
  signature : function.signature.sound = true
  signed : function.signature.kind? = some .signature
  body : function.body.sound = true
  braced : function.body.isBody = true

theorem Tree.function_sound {item : Tree} (sound : item.sound = true) {function : Function}
    (found : item.asFunction? = some function) : function.Sound := by
  obtain ⟨outer, visibility, signature, body, rfl, rfl⟩ := function_shape found
  have parts := soundAll_children sound rfl rfl
  simp only [children_node, soundAll_cons, soundAll_nil, Bool.and_eq_true] at parts
  obtain ⟨-, -, signed, bodied, -⟩ := parts
  obtain ⟨_, _, _, _, same, braced⟩ := isFunction_shape (sound_parts sound).1
  cases same
  exact ⟨signed, rfl, bodied, braced⟩

namespace Binder
open TestDouble.Tree

variable {binder : Binder} {place : Place}

theorem bind_node {kind : Kind} (other : isRebound kind = false) (place : Place) (children : List Tree) :
    (binder.bind place (.node kind children)).1 = .node kind (children.map fun child =>
      (binder.bind (place.inside binder.root (.node kind children)) child).1) := by
  rw [bind_ordinary, rebuilt, List.map_map]
  · rfl
  all_goals
    rintro rfl
    cases other

/-- Binding makes no node of any other kind. -/
theorem bind_node_iff {kind : Kind} (other : isRebound kind = false) {tree : Tree} {news : List Tree} :
    (binder.bind place tree).1 = .node kind news ↔ ∃ olds, tree = .node kind olds ∧
      news = olds.map fun child => (binder.bind (place.inside binder.root (.node kind olds)) child).1 := by
  constructor
  · intro same
    cases tree with
    | token t => cases same
    | node own olds =>
        rcases bind_shape place own olds with ⟨made, _, remakes, bound⟩ | bound
        · rw [bound] at same
          cases same
          cases remakes <;> cases other
        · rw [bound, rebuilt, List.map_map] at same
          cases same
          exact ⟨olds, rfl, rfl⟩
  · rintro ⟨olds, rfl, rfl⟩
    exact bind_node other place olds

theorem kind?_bind_iff {kind : Kind} (other : isRebound kind = false) (tree : Tree) :
    (binder.bind place tree).1.kind? = some kind ↔ tree.kind? = some kind := by
  constructor
  · intro bound
    cases made : (binder.bind place tree).1 with
    | token t =>
        rw [made] at bound
        cases bound
    | node own news =>
        rw [made] at bound
        cases bound
        obtain ⟨olds, rfl, -⟩ := (bind_node_iff other).mp made
        rfl
  · intro own
    cases tree with
    | token t => cases own
    | node own olds =>
        cases own
        rw [bind_node other]
        rfl

/-! ### Functions -/

/-- A function with its parts bound. -/
def boundFunction (binder : Binder) (place : Place) (function : Function) : Function where
  attributes := function.attributes.map fun attr => (binder.bind place attr).1
  signature := (binder.bind place function.signature).1
  body := (binder.bind place function.body).1

theorem names_bind (path : Tree) : (binder.bind place path).1.names = path.names := by
  by_cases isPath : path.kind? = some .path
  · cases path with
    | token t => cases isPath
    | node kind children =>
        cases isPath
        rw [bind_node rfl, Place.inside_of_not_item rfl]
        refine names_of_shows ?_
        rw [List.forall₂_map_left_iff, List.forall₂_same]
        exact fun child _ => bind_shows child place
  · have none : ∀ tree : Tree, tree.kind? ≠ some .path → tree.names = [] := by
      intro tree other
      unfold names segments
      split
      · exact absurd rfl other
      · rfl
    rw [none path isPath, none _ fun bound => isPath ((kind?_bind_iff rfl path).mp bound)]

theorem attributePath?_bind (attr : Tree) :
    (binder.bind place attr).1.attributePath? = attr.attributePath?.map fun path => (binder.bind place path).1 := by
  cases before : attr.attributePath? with
  | some path =>
      obtain ⟨mark, inner, rest, rfl⟩ := attributePath?_iff.mp before
      refine attributePath?_iff.mpr ⟨(binder.bind place mark).1, (binder.bind place inner).1,
        rest.map fun child => (binder.bind place child).1, ?_⟩
      simp (disch := decide) only [bind_node, Place.inside_of_not_item, List.map_cons, List.map_nil]
  | none =>
      -- only a group in brackets becomes one
      cases after : (binder.bind place attr).1.attributePath? with
      | none => rfl
      | some found =>
          obtain ⟨_, _, _, made⟩ := attributePath?_iff.mp after
          obtain ⟨olds, rfl, parts⟩ := (bind_node_iff rfl).mp made
          obtain ⟨mark, _, rfl, -, parts⟩ := List.map_eq_cons_iff.mp parts.symm
          obtain ⟨inner, _, rfl, -, parts⟩ := List.map_eq_cons_iff.mp parts
          obtain ⟨group, _, rfl, bracket, parts⟩ := List.map_eq_cons_iff.mp parts
          obtain ⟨content, rfl, parts'⟩ := (bind_node_iff rfl).mp bracket
          obtain ⟨path, rest, rfl, -, -⟩ := List.map_eq_cons_iff.mp parts'.symm
          cases List.map_eq_nil_iff.mp parts
          cases before

theorem isTest_bound (function : Function) :
    Catalog.isTest (binder.boundFunction place function) = Catalog.isTest function := by
  unfold Catalog.isTest boundFunction
  rw [List.any_map]
  refine congrArg (List.any function.attributes) (funext fun attr => ?_)
  simp only [Function.comp_apply, attributePath?_bind]
  cases attr.attributePath? with
  | none => rfl
  | some path => simp only [Option.map_some, names_bind]

theorem name_bound {function : Function} (sound : function.Sound) :
    (binder.boundFunction place function).name = function.name := by
  obtain ⟨attributes, signature, body⟩ := function
  obtain ⟨formed, signed, -, -⟩ := sound
  cases signature with
  | token t => cases signed
  | node kind children =>
      cases signed
      obtain ⟨_, _, _, _, _, name, _, _, _, _, rfl⟩ := signature_shape (sound_parts formed).1
      simp (disch := decide) only [boundFunction, Function.name, bind_node, List.map_cons, List.map_nil]
      rfl

/-- Binding a function binds its parts, at the place of the function. -/
theorem asFunction?_bind {item : Tree} (sound : item.sound = true) {function : Function}
    (found : item.asFunction? = some function) :
    (binder.bind place item).1.asFunction? = some (binder.boundFunction (place.inside binder.root item) function) := by
  obtain ⟨-, -, -, braced⟩ := function_sound sound found
  obtain ⟨outer, visibility, signature, body, rfl, rfl⟩ := function_shape found
  obtain ⟨inner, statements, rfl⟩ := body_shape braced
  simp (disch := decide) only [bind_node, List.map_cons, List.map_nil, boundFunction, group]
  simp (disch := decide) only [Place.inside_of_not_item, asFunction?, innerAttributes, List.map_append]

theorem statements_bind {body : Tree} (braced : body.isBody = true) :
    (binder.bind place body).1.statements = body.statements.map fun statement => (binder.bind place statement).1 := by
  obtain ⟨inner, statements, rfl⟩ := body_shape braced
  simp (disch := decide) only [bind_node, Place.inside_of_not_item, Tree.statements, List.map_cons, group]

/-! ### Tests -/

/-- A test with its function bound. -/
def boundTest (binder : Binder) (test : Test) : Test where
  module := test.module
  function := binder.boundFunction ⟨test.module, some (test.key binder.root, true)⟩ test.function

end Binder

namespace Catalog
open TestDouble.Tree Binder

variable {binder : Binder} {path : ModulePath}

theorem testsOf_other {item : Tree} (notModule : item.kind? ≠ some .itemMod) (notFunction : item.kind? ≠ some .itemFn) :
    testsOf path item = [] := by
  unfold testsOf
  split
  · exact absurd rfl notModule
  · exact absurd rfl notFunction
  · rfl

theorem testsOf_bind_function {children : List Tree} (sound : (Tree.node .itemFn children).sound = true) :
    testsOf path (binder.bind ⟨path, none⟩ (.node .itemFn children)).1 =
      (testsOf path (.node .itemFn children)).map binder.boundTest := by
  obtain ⟨function, found⟩ : ∃ function, (Tree.node .itemFn children).asFunction? = some function := by
    obtain ⟨_, _, _, _, rfl, -⟩ := isFunction_shape (sound_parts sound).1
    exact ⟨_, rfl⟩
  rw [testsOf_function found, testsOf_function (asFunction?_bind sound found), isTest_bound, Place.inside_function found]
  split
  · rename_i test
    rw [test]
    rfl
  · rfl

/-- A module without content in place stays one, and one with content has its items bound. -/
theorem testsOf_bind_module {children : List Tree} (sound : (Tree.node .itemMod children).sound = true)
    (below : ∀ name content, (Tree.node .itemMod children).asModule? = some ⟨name, some content⟩ →
      soundAll content = true → testsIn (path ++ [name]) (content.map fun item => (binder.bind ⟨path ++ [name], none⟩ item).1) =
        (testsIn (path ++ [name]) content).map binder.boundTest) :
    testsOf path (binder.bind ⟨path, none⟩ (.node .itemMod children)).1 =
      (testsOf path (.node .itemMod children)).map binder.boundTest := by
  obtain ⟨attributes, visibility, unsafety, word, name, content, rfl, -, shape⟩ :=
    module_shape (wellFormed_of_sound sound)
  rcases Bool.or_eq_true_iff.mp shape with body | ends
  · obtain ⟨inner, items, rfl⟩ := body_shape body
    have inline : (Tree.node .itemMod [attributes, visibility, unsafety, word, ident name,
        group .brace (.node .attributes inner :: items)]).asModule? = some ⟨name, some items⟩ := rfl
    have bound : (binder.bind ⟨path, none⟩ (.node .itemMod [attributes, visibility, unsafety, word, ident name,
        group .brace (.node .attributes inner :: items)])).1.asModule? =
          some ⟨name, some (items.map fun item => (binder.bind ⟨path ++ [name], none⟩ item).1)⟩ := by
      rw [bind_node rfl, Place.inside_module inline]
      simp (disch := decide) only [bind_node, Place.inside_of_not_item, List.map_cons, group]
      rfl
    rw [testsOf_module inline, testsOf_module bound, below name items inline (soundAll_content sound inline)]
  · obtain ⟨joint, rfl⟩ := token_of_isPunct ends
    rw [bind_node rfl]
    rfl

/-- Binding keeps the tests, and binds them. -/
theorem testsIn_bind {items : List Tree} (sound : soundAll items = true) :
    testsIn path (items.map fun item => (binder.bind ⟨path, none⟩ item).1) =
      (testsIn path items).map binder.boundTest := by
  induction items using Tree.byContents generalizing path with
  | step items ih =>
      rw [soundAll_eq_all, List.all_eq_true] at sound
      rw [testsIn_eq_flatMap, testsIn_eq_flatMap, List.flatMap_map, List.map_flatMap]
      refine List.flatMap_congr fun item member => ?_
      by_cases module : item.kind? = some .itemMod
      · cases item with
        | token t => cases module
        | node kind children =>
            cases module
            exact testsOf_bind_module (sound _ member) fun name content inline inside =>
              ih _ member name content inline inside
      by_cases function : item.kind? = some .itemFn
      · cases item with
        | token t => cases function
        | node kind children =>
            cases function
            exact testsOf_bind_function (sound _ member)
      · rw [testsOf_other module function, testsOf_other]
        · rfl
        · exact fun bound => module ((kind?_bind_iff rfl item).mp bound)
        · exact fun bound => function ((kind?_bind_iff rfl item).mp bound)

theorem sound_of_test {root : String} {items : List Tree} (sound : soundAll items = true) {test : Test}
    (member : test ∈ (ofItems root items).tests) : test.function.Sound := by
  obtain ⟨content, reached, item, inside, found, -⟩ := mem_tests.mp member
  have each := reached.soundAll sound
  rw [soundAll_eq_all, List.all_eq_true] at each
  exact function_sound (each item inside) found

end Catalog

end TestDouble
