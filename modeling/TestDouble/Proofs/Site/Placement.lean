import TestDouble.Proofs.Catalog.Tests
import TestDouble.Proofs.Site.Walk
/-!
# Where a position stands

A position in the items of an annotated module leads through inline modules to one item, and then into it.
It is *direct* when that item is a function and the rest of it leads through the statements of its body
without passing another item. At a direct position the walk of binding stands in the function itself.
-/

namespace TestDouble

/-- That a position leads to an item of a module at a path; the last part leads on inside of the item. -/
inductive Stands : List Tree → Position → ModulePath → Tree → Position → Prop where
  | item {items : List Tree} {index : Nat} {item : Tree} (member : items[index]? = some item) (rest : Position) :
      Stands items (index :: rest) [] item rest
  | inner {items content : List Tree} {index next : Nat} {module item : Tree} {name : String}
      {path : ModulePath} {position rest : Position} (member : items[index]? = some module)
      (inline : module.asModule? = some ⟨name, some content⟩)
      (below : Stands content (next :: position) path item rest) :
      Stands items (index :: 5 :: (next + 1) :: position) (name :: path) item rest

theorem Stands.inline {items : List Tree} {position rest : Position} {path : ModulePath} {item : Tree}
    (stands : Stands items position path item rest) : ∃ content, Inline items path content ∧ item ∈ content := by
  induction stands with
  | @item items _ _ member _ => exact ⟨items, .here items, List.mem_of_getElem? member⟩
  | inner member inline _ ih =>
      obtain ⟨content, reached, inside⟩ := ih
      exact ⟨content, .inner (List.mem_of_getElem? member) inline reached, inside⟩

/-- Whether a position passes an item on its way, or ends at one. -/
def Tree.passesItem : Tree → Position → Bool
  | .token _, _ => false
  | .node kind _, [] => Site.isItem kind
  | .node kind children, index :: rest =>
    Site.isItem kind || (children[index]?.map fun child => child.passesItem rest).getD false

/-- That a position stands in the statements of a function of a module, outside of items in them. -/
structure Direct (items : List Tree) (position : Position) (path : ModulePath) (function : Function) : Prop where
  placed : ∃ item index rest statement, Stands items position path item (3 :: (index + 1) :: rest) ∧
    item.asFunction? = some function ∧ function.body.statements[index]? = some statement ∧
    statement.passesItem rest = false

namespace Place

theorem inside_of_not_item {kind : Kind} (notItem : Site.isItem kind = false) (root : String) (place : Place)
    (children : List Tree) : place.inside root (.node kind children) = place := by
  unfold inside
  split
  · rename_i same
    cases same
    cases notItem
  · rename_i same
    cases same
    cases notItem
  · rename_i same
    cases same
    cases notItem
  · rfl

theorem inside_module {item : Tree} {name : String} {content : List Tree}
    (inline : item.asModule? = some ⟨name, some content⟩) (root : String) (place : Place) :
    place.inside root item = { place with module := place.module ++ [name] } := by
  obtain ⟨attributes, visibility, unsafety, word, inner, rfl⟩ := Tree.inline_module_shape inline
  rfl

theorem inside_function {item : Tree} {function : Function} (found : item.asFunction? = some function)
    (root : String) (place : Place) :
    place.inside root item =
      { place with function := some (Name.key root place.module function.name, Catalog.isTest function) } := by
  obtain ⟨outer, visibility, signature, body, rfl, -⟩ := Tree.function_shape found
  unfold inside
  rw [found]

end Place

namespace Binder

variable {binder : Binder}

theorem visits_child_iff {place inner : Place} {kind : Kind} (notCall : kind ≠ .call)
    (notMethod : kind ≠ .methodCall) {children : List Tree} {index : Nat} {position : Position} {found : Tree} :
    Visits binder place (.node kind children) (index :: position) inner found ↔
      ∃ part, children[index]? = some part ∧
        Visits binder (place.inside binder.root (.node kind children)) part position inner found := by
  constructor
  · intro visited
    cases visited with
    | child whole unbound member below => exact ⟨_, member, below⟩
    | attributes bound below => exact absurd rfl notCall
    | last bound kept below => exact absurd rfl notCall
  · rintro ⟨part, member, below⟩
    refine .child ?_ ?_ member below
    · rintro ⟨method, _⟩
      exact notMethod (Option.some.inj method)
    · rintro ⟨marks, _⟩
      exact notCall (marks_call marks).1

theorem Visits.place_eq {place inner : Place} {tree found : Tree} {position : Position}
    (visited : Visits binder place tree position inner found) (free : tree.passesItem position = false) :
    inner = place := by
  induction visited with
  | here => rfl
  | @child place inner kind children index part found position whole unbound member below ih =>
      have parts := Bool.or_eq_false_iff.mp free
      rw [member] at parts
      rw [ih parts.2, Place.inside_of_not_item parts.1]
  | attributes bound below ih =>
      exact ih (Bool.or_eq_false_iff.mp free).2
  | @last place inner attributes own arguments children index last found position bound kept below ih =>
      have inCallee : (Tree.node .pathExpr [own, .node .path children]).passesItem (1 :: index :: position) =
          false := (Bool.or_eq_false_iff.mp free).2
      have inPath : (Tree.node .path children).passesItem (index :: position) = false :=
        (Bool.or_eq_false_iff.mp inCallee).2
      have inSegment := (Bool.or_eq_false_iff.mp inPath).2
      rw [kept.member] at inSegment
      exact ih inSegment

/-- Binding some items comes to a part of one of them. -/
def Comes (binder : Binder) (place : Place) (items : List Tree) (position : Position) (inner : Place)
    (found : Tree) : Prop :=
  ∃ index rest item, position = index :: rest ∧ items[index]? = some item ∧
    Visits binder place item rest inner found

/-- Through inline modules the walk only collects their names. -/
theorem comes_iff {items : List Tree} {position rest : Position} {path : ModulePath} {item : Tree}
    (stands : Stands items position path item rest) {place inner : Place} {found : Tree} :
    binder.Comes place items position inner found ↔
      Visits binder { place with module := place.module ++ path } item rest inner found := by
  induction stands generalizing place with
  | item member rest =>
      rw [List.append_nil]
      constructor
      · rintro ⟨_, _, own, same, found, visited⟩
        cases same
        rw [member] at found
        cases found
        exact visited
      · intro visited
        exact ⟨_, _, _, rfl, member, visited⟩
  | @inner items content index next module item name path position rest member inline below ih =>
      -- down a module item the walk passes its body, of which the first child holds the inner attributes
      have descent : Visits binder place module (5 :: (next + 1) :: position) inner found ↔
          binder.Comes { place with module := place.module ++ [name] } content (next :: position) inner found := by
        have entered := Place.inside_module inline binder.root place
        obtain ⟨attributes, visibility, unsafety, word, first, rfl⟩ := Tree.inline_module_shape inline
        rw [visits_child_iff (by decide) (by decide), entered]
        constructor
        · rintro ⟨body, bodyAt, inBody⟩
          cases bodyAt
          obtain ⟨part, partAt, visited⟩ := (visits_child_iff (by decide) (by decide)).mp inBody
          exact ⟨next, position, part, rfl, partAt, visited⟩
        · rintro ⟨_, _, part, same, partAt, visited⟩
          cases same
          exact ⟨_, rfl, (visits_child_iff (by decide) (by decide)).mpr ⟨part, partAt, visited⟩⟩
      have below := @ih { place with module := place.module ++ [name] }
      rw [List.append_assoc, List.singleton_append] at below
      rw [← below, ← descent]
      constructor
      · rintro ⟨_, _, own, same, found, visited⟩
        cases same
        rw [member] at found
        cases found
        exact visited
      · intro visited
        exact ⟨_, _, _, rfl, member, visited⟩

/-- At a direct position the walk stands in the function, which is a test if it has the attribute. -/
theorem place_of_direct {items : List Tree} {position : Position} {path : ModulePath} {function : Function}
    (direct : Direct items position path function) {inner : Place} {found : Tree}
    (comes : binder.Comes ⟨[], none⟩ items position inner found) :
    inner = ⟨path, some (Name.key binder.root path function.name, Catalog.isTest function)⟩ := by
  obtain ⟨item, index, rest, statement, stands, viewed, inBody, free⟩ := direct.placed
  have visited := (comes_iff stands).mp comes
  have entered := Place.inside_function viewed binder.root ⟨[] ++ path, none⟩
  obtain ⟨outer, visibility, signature, body, rfl, same⟩ := Tree.function_shape viewed
  obtain ⟨children, bodyShape, statementAt⟩ := Tree.statement_at inBody
  obtain ⟨part, partAt, below⟩ := (visits_child_iff (by decide) (by decide)).mp visited
  cases partAt
  rw [entered] at below
  have shape : body = .node (.group .brace) children := by
    rw [same] at bodyShape
    exact bodyShape
  rw [shape] at below
  obtain ⟨first, firstAt, inStatement⟩ := (visits_child_iff (by decide) (by decide)).mp below
  rw [statementAt] at firstAt
  cases firstAt
  rw [inStatement.place_eq free]
  rfl

end Binder

/-- The direct positions of tests are those of functions with the attribute. -/
theorem direct_test_iff {root : String} {items : List Tree} {position : Position} :
    (∃ test ∈ (Catalog.ofItems root items).tests, Direct items position test.module test.function) ↔
      ∃ path function, Direct items position path function ∧ Catalog.isTest function = true := by
  constructor
  · rintro ⟨test, member, direct⟩
    obtain ⟨content, _, item, _, _, tested⟩ := Catalog.mem_tests.mp member
    exact ⟨test.module, test.function, direct, tested⟩
  · rintro ⟨path, function, direct, tested⟩
    obtain ⟨item, index, rest, statement, stands, viewed, _, _⟩ := direct.placed
    obtain ⟨content, reached, inside⟩ := stands.inline
    exact ⟨⟨path, function⟩, Catalog.mem_tests.mpr ⟨content, reached, item, inside, viewed, tested⟩, direct⟩

end TestDouble
