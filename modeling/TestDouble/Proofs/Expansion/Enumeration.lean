import TestDouble.Proofs.Catalog.Collection
import TestDouble.Proofs.Expansion.Registration
import TestDouble.Proofs.Expansion.Strays
import TestDouble.Proofs.Site.Recorded
/-!
# The enumeration of the tests

A catalog lists the tests of a module as they stand in the source: every function with the attribute of a test that
is an item of an inline module, each once and in order, with the path of that module. The walk of binding comes to
each of them with the same path, so that the key it holds in the body is the one that the specification has.
-/

namespace TestDouble

/-! ### The order of the source -/

namespace Position

/-- A position branches off in front of another one. Then neither of them leads into the other. -/
inductive Before : Position → Position → Prop where
  | apart {index next : Nat} {rest more : Position} (less : index < next) : Before (index :: rest) (next :: more)
  | deeper {index : Nat} {rest more : Position} (below : Before rest more) : Before (index :: rest) (index :: more)

theorem Before.lex {one other : Position} (before : Before one other) : List.Lex (· < ·) one other := by
  induction before with
  | apart less => exact .rel less
  | deeper below ih => exact .cons ih

theorem Before.inContent {one other : Position} (before : Before one other) :
    Before (Position.inContent one) (Position.inContent other) := by
  cases before with
  | apart less => exact .deeper (.apart (Nat.succ_lt_succ less))
  | deeper below => exact .deeper (.deeper below)

end Position

namespace Tree

/-- What stands at a position ends before anything begins that it branches off in front of. -/
theorem offset_before {tree part : Tree} {position other : Position} (before : position.Before other)
    (found : tree.at? position = some part) :
    tree.offset position + part.tokens.length ≤ tree.offset other := by
  induction before generalizing tree with
  | @apart _ _ _ more less =>
      cases tree with
      | token t => cases found
      | node kind children => exact offset_apart less found more
  | deeper below ih =>
      cases tree with
      | token t => cases found
      | node kind children =>
          obtain ⟨child, member, inside⟩ := at?_child.mp found
          rw [offset_child member, offset_child member, Nat.add_assoc]
          exact Nat.add_le_add_left (ih inside) _

/-- That one position comes before another in pre-order, and all that stands at it before what stands at the other. -/
structure InOrder (tree : Tree) (one next : Position) : Prop where
  preorder : List.Lex (· < ·) one next
  behind : ∀ part, tree.at? one = some part → tree.offset one + part.tokens.length ≤ tree.offset next

theorem inOrder_of_before (tree : Tree) {one next : Position} (before : one.Before next) : tree.InOrder one next :=
  ⟨before.lex, fun _ found => offset_before before found⟩

end Tree

/-! ### Where the tests stand -/

/--
That the function of a test is an item of a module which is reached through inline modules only, at the path of the
test, and that the path of one of its attributes ends in `test`.
-/
structure Test.Placed (items : List Tree) (position : Position) (item : Tree) (test : Test) : Prop where
  stands : Stands items position test.module item []
  function : item.asFunction? = some test.function
  marked : ∃ attr ∈ test.function.attributes, ∃ path, attr.attributePath? = some path ∧
    path.names.getLast? = some "test"

theorem Stands.cons {items : List Tree} {position rest : Position} {path : ModulePath} {item : Tree}
    (stands : Stands items position path item rest) : ∃ first more, position = first :: more := by
  cases stands with
  | item => exact ⟨_, _, rfl⟩
  | inner => exact ⟨_, _, rfl⟩

namespace Catalog

theorem isTest_iff {function : Function} :
    isTest function = true ↔ ∃ attr ∈ function.attributes, ∃ path, attr.attributePath? = some path ∧
      path.names.getLast? = some "test" := by
  rw [isTest, List.any_eq_true]
  refine exists_congr fun attr => and_congr_right fun _ => ?_
  cases attr.attributePath? with
  | none => simp
  | some path => cases last : path.names.getLast? <;> simp [last]

mutual

/-- The tests of an item with their positions in it. -/
def placedOf (path : ModulePath) : Tree → List (Position × Test)
  | .node .itemMod [_, _, _, _, .token (.ident name), .node (.group .brace) (_ :: items)] =>
    (placedIn (path ++ [name]) 0 items).map fun own => (own.1.inContent, own.2)
  | item => (testsOf path item).map (([], ·))

def placedIn (path : ModulePath) (index : Nat) : List Tree → List (Position × Test)
  | [] => []
  | item :: rest => (placedOf path item).map (fun own => (index :: own.1, own.2)) ++ placedIn path (index + 1) rest

end

variable {path : ModulePath} {items : List Tree}

theorem placedIn_eq_numbered (path : ModulePath) (index : Nat) (items : List Tree) :
    placedIn path index items = Position.numbered (placedOf path) index items := by
  induction items generalizing index with
  | nil => rfl
  | cons first rest ih => rw [placedIn, Position.numbered, ih]

theorem placedOf_module {item : Tree} {name : String} {content : List Tree}
    (inline : item.asModule? = some ⟨name, some content⟩) :
    placedOf path item = (placedIn (path ++ [name]) 0 content).map fun own => (own.1.inContent, own.2) := by
  obtain ⟨attributes, visibility, unsafety, word, inner, rfl⟩ := Tree.inline_module_shape inline
  rfl

theorem placedOf_other {item : Tree} (other : ∀ name content, item.asModule? ≠ some ⟨name, some content⟩) :
    placedOf path item = (testsOf path item).map (([], ·)) := by
  unfold placedOf
  split
  · exact absurd rfl (other _ _)
  · rfl

/-- Without the positions these are the tests, in the same order. -/
theorem placedIn_values (index : Nat) : (placedIn path index items).map Prod.snd = testsIn path items := by
  induction items using Tree.byContents generalizing path index with
  | step items ih =>
      rw [placedIn_eq_numbered, Position.numbered_values, testsIn_eq_flatMap]
      refine List.flatMap_congr fun item member => ?_
      rcases item.inline_or_other with ⟨name, content, inline⟩ | other
      · rw [placedOf_module inline, testsOf_module inline, List.map_map]
        exact ih item member name content inline 0
      · rw [placedOf_other other, List.map_map]
        exact List.map_id _

theorem mem_placedOf_other {item : Tree} (other : ∀ name content, item.asModule? ≠ some ⟨name, some content⟩)
    {position : Position} {test : Test} :
    (position, test) ∈ placedOf path item ↔
      position = [] ∧ test.module = path ∧ item.asFunction? = some test.function ∧ isTest test.function = true := by
  rw [placedOf_other other, List.mem_map]
  constructor
  · rintro ⟨own, member, same⟩
    cases same
    refine ⟨rfl, (mem_testsOf.mp member).resolve_left ?_⟩
    rintro ⟨name, content, inline, -⟩
    exact other name content inline
  · rintro ⟨rfl, own⟩
    exact ⟨test, mem_testsOf.mpr (.inr own), rfl⟩

theorem mem_placedIn {position : Position} {test : Test} :
    (position, test) ∈ placedIn path 0 items ↔
      ∃ below item, test.module = path ++ below ∧ Stands items position below item [] ∧
        item.asFunction? = some test.function ∧ isTest test.function = true := by
  induction items using Tree.byContents generalizing path position with
  | step items ih =>
      rw [placedIn_eq_numbered, Position.mem_numbered]
      constructor
      · rintro ⟨index, rest, item, rfl, itemAt, inside⟩
        rw [Nat.zero_add]
        rcases item.inline_or_other with ⟨name, content, inline⟩ | other
        · rw [placedOf_module inline] at inside
          obtain ⟨⟨own, _⟩, deeper, same⟩ := List.mem_map.mp inside
          cases same
          obtain ⟨below, function, place, stands, viewed⟩ :=
            (ih item (List.mem_of_getElem? itemAt) name content inline).mp deeper
          obtain ⟨next, more, rfl⟩ := stands.cons
          refine ⟨name :: below, function, ?_, .inner itemAt inline stands, viewed⟩
          rw [place, List.append_assoc]
          rfl
        · obtain ⟨rfl, same, viewed⟩ := (mem_placedOf_other other).mp inside
          exact ⟨[], item, by rw [same, List.append_nil], .item itemAt [], viewed⟩
      · rintro ⟨below, function, place, stands, viewed, tested⟩
        cases stands with
        | @item _ index _ itemAt _ =>
            rw [List.append_nil] at place
            refine ⟨index, [], function, by rw [Nat.zero_add], itemAt, ?_⟩
            refine (mem_placedOf_other ?_).mpr ⟨rfl, place, viewed, tested⟩
            obtain ⟨outer, visibility, signature, body, rfl, -⟩ := Tree.function_shape viewed
            intro name content same
            cases same
        | @inner _ content index next module _ name below position _ itemAt inline deeper =>
            refine ⟨index, 5 :: (next + 1) :: position, module, by rw [Nat.zero_add], itemAt, ?_⟩
            rw [placedOf_module inline]
            refine List.mem_map.mpr ⟨(next :: position, test), ?_, rfl⟩
            refine (ih module (List.mem_of_getElem? itemAt) name content inline).mpr
              ⟨below, function, ?_, deeper, viewed, tested⟩
            rw [place, List.append_assoc]
            rfl

theorem placedIn_before (index : Nat) :
    (placedIn path index items).Pairwise fun one next => one.1.Before next.1 := by
  induction items using Tree.byContents generalizing path index with
  | step items ih =>
      rw [placedIn_eq_numbered]
      refine Position.numbered_pairwise .deeper .apart (fun item member => ?_) index
      rcases item.inline_or_other with ⟨name, content, inline⟩ | other
      · rw [placedOf_module inline]
        exact List.pairwise_map.mpr ((ih item member name content inline 0).imp Position.Before.inContent)
      · -- such an item is one test at most
        rw [placedOf_other other]
        cases viewed : item.asFunction? with
        | none =>
            rw [testsOf_of_neither other viewed]
            exact .nil
        | some function =>
            rw [testsOf_function viewed]
            split
            · exact List.pairwise_singleton _ _
            · exact .nil

end Catalog

/-- The tests that are placed in a module are those found there with their positions. -/
theorem Test.placed_iff {items : List Tree} {position : Position} {test : Test} :
    (position, test) ∈ Catalog.placedIn [] 0 items ↔ ∃ item, test.Placed items position item := by
  rw [Catalog.mem_placedIn]
  constructor
  · rintro ⟨below, item, place, stands, viewed, tested⟩
    rw [List.nil_append] at place
    exact ⟨item, place ▸ stands, viewed, Catalog.isTest_iff.mp tested⟩
  · rintro ⟨item, placed⟩
    exact ⟨test.module, item, rfl, placed.stands, placed.function, Catalog.isTest_iff.mpr placed.marked⟩

/-! ### What binding does with a test -/

namespace Binder

variable {binder : Binder}

theorem visits_nil_iff {place inner : Place} {tree found : Tree} :
    Visits binder place tree [] inner found ↔ inner = place ∧ found = tree := by
  constructor
  · intro visited
    cases visited
    exact ⟨rfl, rfl⟩
  · rintro ⟨rfl, rfl⟩
    exact .here inner found

/-- The items of a module, put together again behind its inner attributes. -/
def boundContent (binder : Binder) (place : Place) (inner : Tree) (items : List Tree) : Tree :=
  .group .brace (inner :: items.map fun item => (binder.bind place item).1)

theorem bind_module {item : Tree} {name : String} {content : List Tree}
    (inline : item.asModule? = some ⟨name, some content⟩) (place : Place) :
    ∃ inner, (binder.bind place item).1.at? [5] =
      some (binder.boundContent { place with module := place.module ++ [name] } inner content) := by
  have entered := Place.inside_module inline binder.root place
  obtain ⟨attributes, visibility, unsafety, word, first, rfl⟩ := Tree.inline_module_shape inline
  have body (within : Place) : (binder.bind within (.group .brace (first :: content))).1 =
      binder.boundContent within (binder.bind within first).1 content := by
    rw [Tree.group, bind_ordinary (by decide) (by decide) (by decide), rebuilt, boundContent, List.map_map]
    rfl
  rw [bind_ordinary (by decide) (by decide) (by decide), rebuilt, entered]
  exact ⟨_, congrArg some (body _)⟩

theorem at?_boundContent {items : List Tree} {index : Nat} {item : Tree} (member : items[index]? = some item)
    (place : Place) (inner : Tree) (rest : Position) :
    (binder.boundContent place inner items).at? ((index + 1) :: rest) = (binder.bind place item).1.at? rest := by
  show ((items.map fun item => (binder.bind place item).1)[index]?.bind fun child => child.at? rest) = _
  rw [List.getElem?_map, member]
  rfl

/-- What stands in an item stands, after binding, where it stood in what the item became in its module. -/
theorem at?_bound {items : List Tree} {position rest : Position} {path : ModulePath} {item : Tree}
    (stands : Stands items position path item rest) {place : Place} {whole inner : Tree}
    (body : whole.at? [5] = some (binder.boundContent place inner items)) :
    whole.at? position.inContent = (binder.bind { place with module := place.module ++ path } item).1.at? rest := by
  induction stands generalizing place whole inner with
  | @item items index item member rest =>
      rw [List.append_nil]
      exact (Tree.at?_append body ((index + 1) :: rest)).trans (at?_boundContent member place inner rest)
  | @inner items content index next module item name path position rest member inline below ih =>
      obtain ⟨first, within⟩ := binder.bind_module inline place
      have deeper := ih within
      rw [List.append_assoc] at deeper
      calc whole.at? (5 :: (index + 1) :: 5 :: (next + 1) :: position)
        _ = (binder.boundContent place inner items).at? ((index + 1) :: 5 :: (next + 1) :: position) :=
            Tree.at?_append body ((index + 1) :: 5 :: (next + 1) :: position)
        _ = (binder.bind place module).1.at? (5 :: (next + 1) :: position) :=
            at?_boundContent member place inner (5 :: (next + 1) :: position)
        _ = _ := deeper

end Binder

namespace Expansion

variable {settings : Settings} {module : Tree} {root : String} {items : List Tree}

theorem at?_bindSites (inline : module.asModule? = some ⟨root, some items⟩) (settings : Settings) (keys : List String)
    {position rest : Position} {path : ModulePath} {item : Tree} (stands : Stands items position path item rest) :
    (bindSites settings keys module).1.at? position.inContent =
      (Binder.bind ⟨settings, root, keys⟩ ⟨path, none⟩ item).1.at? rest := by
  obtain ⟨attributes, visibility, unsafety, word, inner, rfl⟩ := Tree.inline_module_shape inline
  have content : (bindSites settings keys (.node .itemMod [attributes, visibility, unsafety, word, Tree.ident root,
      .group .brace (inner :: items)])).1.at? [5] =
        some (Binder.boundContent ⟨settings, root, keys⟩ ⟨[], none⟩ inner items) := by
    rw [bindSites_inline]
    rfl
  exact Binder.at?_bound stands content

/--
That binding comes to the function of a test in the module of the test, and goes through it with the key that the
specification of the test has.
-/
structure Enters (settings : Settings) (keys : List String) (catalog : Catalog) (module : Tree) (items : List Tree)
    (position : Position) (item : Tree) (test : Test) : Prop where
  comes : ∀ place found, Binder.Comes ⟨settings, catalog.root, keys⟩ start items position place found ↔
    place = ⟨test.module, none⟩ ∧ found = item
  enters : Place.inside catalog.root ⟨test.module, none⟩ item = ⟨test.module, some (test.key catalog.root, true)⟩
  /-- In the place of the function stands one whose parts were bound in the test of that module with that key. -/
  bound : ∃ children, item = .node .itemFn children ∧
    (bindSites settings keys module).1.at? position.inContent = some (.node .itemFn (children.map fun child =>
      (Binder.bind ⟨settings, catalog.root, keys⟩ ⟨test.module, some (test.key catalog.root, true)⟩ child).1))
  key : ∀ specification, Specification.ofTest catalog test (sites settings test) = .ok (some specification) →
    specification.key = test.key catalog.root

theorem enters_of_placed (inline : module.asModule? = some ⟨root, some items⟩) (settings : Settings)
    (keys : List String) {position : Position} {item : Tree} {test : Test} (placed : test.Placed items position item) :
    Enters settings keys (.ofItems root items) module items position item test := by
  have tested := Catalog.isTest_iff.mpr placed.marked
  have entered : Place.inside root ⟨test.module, none⟩ item = ⟨test.module, some (test.key root, true)⟩ := by
    rw [Place.inside_function placed.function, tested]
    rfl
  refine ⟨fun place found => ?_, entered, ?_, fun specification made => key_of_test made⟩
  · rw [Binder.comes_iff placed.stands]
    exact Binder.visits_nil_iff
  · have output := at?_bindSites inline settings keys placed.stands
    obtain ⟨outer, visibility, signature, body, rfl, -⟩ := Tree.function_shape placed.function
    refine ⟨_, rfl, output.trans ?_⟩
    rw [Binder.bind_ordinary (by decide) (by decide) (by decide), Binder.rebuilt, entered, List.map_map]
    rfl

/--
The catalog enumerates the tests faithfully. Every function that is an item of an inline module, at any depth, and has
an attribute whose path ends in `test` is a test of the catalog, and nothing else is; the catalog holds each of them
once, in the order of the source, with the path of its module. A pass that numbers the modules as it comes to them
yields the same. Binding comes to the function with the same path, and both give the test the same key.
-/
theorem tests_enumerated (inline : module.asModule? = some ⟨root, some items⟩) :
    ∃ catalog, Catalog.ofModule module = .ok catalog ∧ catalog.root = root ∧
      (Collection.ofItems items).catalog? root = some catalog ∧
      ∃ placed : List (Position × Test), placed.map Prod.snd = catalog.tests ∧
        (∀ position test, (position, test) ∈ placed ↔ ∃ item, test.Placed items position item) ∧
        placed.Pairwise (fun one next => module.InOrder one.1.inContent next.1.inContent) ∧
        ∀ position item test, test.Placed items position item → module.at? position.inContent = some item ∧
          ∀ settings keys, Enters settings keys catalog module items position item test := by
  refine ⟨.ofItems root items, ofModule_inline inline, rfl, Collection.catalog?_ofItems root items,
    Catalog.placedIn [] 0 items, Catalog.placedIn_values 0, fun position test => Test.placed_iff, ?_, ?_⟩
  · exact (Catalog.placedIn_before 0).imp fun before => module.inOrder_of_before before.inContent
  · intro position item test placed
    exact ⟨placed.stands.at? inline, fun settings keys => enters_of_placed inline settings keys placed⟩

/-- Modules in one another and side by side, with tests behind them, and a test inside of a function. -/
def nestedTests : List Tree :=
  [Tree.inlineModule "outer" [Tree.inlineModule "inner" [Tree.testFunction "first" []], Tree.testFunction "second" []],
    Tree.plainFunction "helper" [Tree.testFunction "hidden" []], Tree.testFunction "third" []]

theorem tests_enumerated_nested :
    ∃ catalog, Catalog.ofModule (Tree.inlineModule "samples" nestedTests) = .ok catalog ∧
      catalog.tests.map (fun test => (test.module, test.function.name)) =
        [(["outer", "inner"], "first"), (["outer"], "second"), ([], "third")] ∧
      ∃ function, (Tree.testFunction "first" []).asFunction? = some function ∧ ∀ settings keys,
        Enters settings keys catalog (Tree.inlineModule "samples" nestedTests) nestedTests [0, 5, 1, 5, 1]
          (Tree.testFunction "first" []) ⟨["outer", "inner"], function⟩ := by
  have inline : (Tree.inlineModule "samples" nestedTests).asModule? = some ⟨"samples", some nestedTests⟩ := rfl
  obtain ⟨catalog, collected, _, _, _, _, _, _, entered⟩ := tests_enumerated inline
  have first : Test.Placed nestedTests [0, 5, 1, 5, 1] (Tree.testFunction "first" []) ⟨["outer", "inner"], _⟩ :=
    ⟨.inner rfl rfl (.inner rfl rfl (.item rfl [])), rfl, _, .head _, _, rfl, by decide⟩
  refine ⟨catalog, collected, ?_, _, rfl, (entered _ _ _ first).2⟩
  rw [ofModule_inline inline] at collected
  cases collected
  decide

end Expansion

end TestDouble
