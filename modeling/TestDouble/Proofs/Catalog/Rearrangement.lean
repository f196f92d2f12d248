import TestDouble.Proofs.Catalog.Tests
/-!
# Rearranged items

The items of a module may stand in another order, and test functions may come and go, in the module and in all
modules below it. As long as glob imports keep their order this does not change what the items declare and import.
-/

namespace TestDouble

namespace Tree

/-- A module item with its content in place. -/
def moduleItem (attributes visibility unsafety word : Tree) (name : String) (inner : Tree) (items : List Tree) : Tree :=
  .node .itemMod [attributes, visibility, unsafety, word, ident name, group .brace (inner :: items)]

/-- Whether an item is a test function. -/
def isTestItem (item : Tree) : Bool := (item.asFunction?.map Catalog.isTest).getD false

/-- The paths of the glob imports that an item holds. -/
def globs (item : Tree) : List (List String) := item.bindings.filterMap Binding.glob?

def holdsGlob (item : Tree) : Bool := !item.globs.isEmpty

theorem asFunction?_of_isTestItem {item : Tree} (test : item.isTestItem = true) :
    ∃ function, item.asFunction? = some function := by
  unfold isTestItem at test
  cases found : item.asFunction? with
  | none =>
      rw [found] at test
      cases test
  | some function => exact ⟨function, rfl⟩

/-- A function declares and imports nothing that a path could lead to. -/
theorem function_empty {item : Tree} {function : Function} (found : item.asFunction? = some function) :
    item.asTrait? = none ∧ item.declaredType? = none ∧ item.bindings = [] ∧ item.moduleName? = none ∧
      item.asModule? = none ∧ item.constant? = none := by
  obtain ⟨outer, visibility, signature, body, rfl, -⟩ := function_shape found
  exact ⟨rfl, rfl, rfl, rfl, rfl, rfl⟩

end Tree

/--
That items differ by the order in which they stand and by test functions only, in the module itself and in the
modules below it. Two items with glob imports stay in their order.
-/
inductive Rearranged : List Tree → List Tree → Prop where
  | refl (items : List Tree) : Rearranged items items
  | keep (item : Tree) {before after : List Tree} (rest : Rearranged before after) :
      Rearranged (item :: before) (item :: after)
  | within (attributes visibility unsafety word : Tree) (name : String) (inner : Tree) (items : List Tree)
      {before after : List Tree} (content : Rearranged before after) :
      Rearranged (Tree.moduleItem attributes visibility unsafety word name inner before :: items)
        (Tree.moduleItem attributes visibility unsafety word name inner after :: items)
  | swap (first second : Tree) (items : List Tree) (ordered : first.globs = [] ∨ second.globs = []) :
      Rearranged (first :: second :: items) (second :: first :: items)
  | insert {test : Tree} (isTest : test.isTestItem = true) (items : List Tree) : Rearranged items (test :: items)
  | remove {test : Tree} (isTest : test.isTestItem = true) (items : List Tree) : Rearranged (test :: items) items
  | trans {before between after : List Tree} (first : Rearranged before between) (second : Rearranged between after) :
      Rearranged before after

namespace Rearranged

theorem symm {before after : List Tree} (rearranged : Rearranged before after) : Rearranged after before := by
  induction rearranged with
  | refl items => exact .refl items
  | keep item _ ih => exact .keep item ih
  | within attributes visibility unsafety word name inner items _ ih =>
      exact .within attributes visibility unsafety word name inner items ih
  | swap first second items ordered => exact .swap second first items ordered.symm
  | insert isTest items => exact .remove isTest items
  | remove isTest items => exact .insert isTest items
  | trans _ _ first second => exact .trans second first

/-- An item moves to the front past items without glob imports, or if it has none itself. -/
theorem toFront (item : Tree) {front : List Tree} (rest : List Tree)
    (ordered : item.globs = [] ∨ ∀ other ∈ front, other.globs = []) :
    Rearranged (front ++ item :: rest) (item :: front ++ rest) := by
  induction front with
  | nil => exact .refl _
  | cons first more ih =>
      have moved := ih (ordered.imp_right fun none other member => none other (List.mem_cons_of_mem _ member))
      have swapped : first.globs = [] ∨ item.globs = [] :=
        ordered.symm.imp_left fun none => none first List.mem_cons_self
      exact .trans (.keep first moved) (.swap first item (more ++ rest) swapped)

/-- Every order of the items in which those with glob imports keep theirs is a rearrangement. -/
theorem of_perm {before after : List Tree} (same : before.Perm after)
    (ordered : before.filter Tree.holdsGlob = after.filter Tree.holdsGlob) :
    Rearranged before after := by
  induction before generalizing after with
  | nil =>
      rw [List.nil_perm.mp same]
      exact .refl []
  | cons item rest ih =>
      -- with glob imports the item is the first such one behind, and nothing before it has any
      obtain ⟨front, back, rfl, free, left⟩ : ∃ front back, after = front ++ item :: back ∧
          (item.globs = [] ∨ ∀ other ∈ front, other.globs = []) ∧
          rest.filter Tree.holdsGlob = (front ++ back).filter Tree.holdsGlob := by
        by_cases plain : item.globs = []
        · obtain ⟨front, back, rfl⟩ := List.append_of_mem (same.subset List.mem_cons_self)
          refine ⟨front, back, rfl, .inl plain, ?_⟩
          have silent : ¬item.holdsGlob = true := by
            rw [Tree.holdsGlob, plain]
            decide
          rw [List.filter_cons_of_neg silent, List.filter_append, List.filter_cons_of_neg silent] at ordered
          rw [ordered, List.filter_append]
        · have holds : item.holdsGlob = true := by simpa [Tree.holdsGlob] using plain
          rw [List.filter_cons_of_pos holds] at ordered
          obtain ⟨front, back, rfl, without, _, later⟩ := List.filter_eq_cons_iff.mp ordered.symm
          have none : ∀ other ∈ front, other.globs = [] := by
            intro other member
            simpa [Tree.holdsGlob] using without other member
          refine ⟨front, back, rfl, .inr none, ?_⟩
          rw [List.filter_append, List.filter_eq_nil_iff.mpr without, later]
          rfl
      have others := List.perm_cons item |>.mp (same.trans List.perm_middle)
      exact .trans (.keep item (ih others left)) (toFront item back free).symm

end Rearranged

/-! ### What a rearrangement keeps -/

namespace Rearranged

/-- What the items hold one by one stays, up to its order, if test functions hold nothing of it. -/
theorem perm_flatMap {α : Type} {held : Tree → List α}
    (tests : ∀ test : Tree, test.isTestItem = true → held test = [])
    (modules : ∀ attributes visibility unsafety word name inner before after,
      held (Tree.moduleItem attributes visibility unsafety word name inner before) =
        held (Tree.moduleItem attributes visibility unsafety word name inner after))
    {before after : List Tree} (rearranged : Rearranged before after) :
    (before.flatMap held).Perm (after.flatMap held) := by
  induction rearranged with
  | refl items => exact .refl _
  | keep item _ ih =>
      rw [List.flatMap_cons, List.flatMap_cons]
      exact ih.append_left (held item)
  | within attributes visibility unsafety word name inner items _ _ =>
      rw [List.flatMap_cons, List.flatMap_cons, modules]
  | swap first second items _ =>
      simp only [List.flatMap_cons, ← List.append_assoc]
      exact List.perm_append_comm.append_right _
  | insert isTest items => rw [List.flatMap_cons, tests _ isTest, List.nil_append]
  | remove isTest items => rw [List.flatMap_cons, tests _ isTest, List.nil_append]
  | trans _ _ first second => exact first.trans second

/-- The glob imports stay in their order. -/
theorem globsOf {before after : List Tree} (rearranged : Rearranged before after) :
    Scope.globsOf before = Scope.globsOf after := by
  have empty : ∀ {test : Tree}, test.isTestItem = true → test.globs = [] := by
    intro test isTest
    obtain ⟨function, found⟩ := Tree.asFunction?_of_isTestItem isTest
    rw [Tree.globs, (Tree.function_empty found).2.2.1]
    rfl
  change before.flatMap Tree.globs = after.flatMap Tree.globs
  induction rearranged with
  | refl items => rfl
  | keep item _ ih => rw [List.flatMap_cons, List.flatMap_cons, ih]
  | within => rfl
  | swap first second items ordered =>
      simp only [List.flatMap_cons]
      rcases ordered with none | none
      · rw [none, List.nil_append, List.nil_append]
      · rw [none, List.nil_append, List.nil_append]
  | insert isTest items => rw [List.flatMap_cons, empty isTest, List.nil_append]
  | remove isTest items => rw [List.flatMap_cons, empty isTest, List.nil_append]
  | trans _ _ first second => exact first.trans second

/-- Every module below the items is a module below the rearranged ones, with its content rearranged. -/
theorem inline {before after content : List Tree} (rearranged : Rearranged before after) {path : ModulePath}
    (reached : Inline before path content) : ∃ other, Inline after path other ∧ Rearranged content other := by
  induction rearranged generalizing path content with
  | refl items => exact ⟨content, reached, .refl content⟩
  | keep item rest ih =>
      cases reached with
      | here => exact ⟨_, .here _, .keep item rest⟩
      | inner member module below =>
          rcases List.mem_cons.mp member with rfl | later
          · exact ⟨content, .inner List.mem_cons_self module below, .refl content⟩
          · obtain ⟨other, found, same⟩ := ih (.inner later module below)
            cases found with
            | inner member module below => exact ⟨other, .inner (List.mem_cons_of_mem _ member) module below, same⟩
  | within attributes visibility unsafety word name inner items inside ih =>
      cases reached with
      | here => exact ⟨_, .here _, .within attributes visibility unsafety word name inner items inside⟩
      | inner member module below =>
          rcases List.mem_cons.mp member with rfl | later
          · cases module
            obtain ⟨other, found, same⟩ := ih below
            exact ⟨other, .inner List.mem_cons_self rfl found, same⟩
          · exact ⟨content, .inner (List.mem_cons_of_mem _ later) module below, .refl content⟩
  | swap first second items ordered =>
      cases reached with
      | here => exact ⟨_, .here _, .swap first second items ordered⟩
      | inner member module below =>
          have swapped := (List.Perm.swap second first items).mem_iff.mp member
          exact ⟨content, .inner swapped module below, .refl content⟩
  | insert isTest items =>
      cases reached with
      | here => exact ⟨_, .here _, .insert isTest items⟩
      | inner member module below =>
          exact ⟨content, .inner (List.mem_cons_of_mem _ member) module below, .refl content⟩
  | remove isTest items =>
      cases reached with
      | here => exact ⟨_, .here _, .remove isTest items⟩
      | inner member module below =>
          rcases List.mem_cons.mp member with rfl | later
          · obtain ⟨function, found⟩ := Tree.asFunction?_of_isTestItem isTest
            rw [(Tree.function_empty found).2.2.2.2.1] at module
            cases module
          · exact ⟨content, .inner later module below, .refl content⟩
  | trans _ _ first second =>
      obtain ⟨between, found, same⟩ := first reached
      obtain ⟨other, reached, alike⟩ := second found
      exact ⟨other, reached, same.trans alike⟩

end Rearranged

end TestDouble
