import TestDouble.Proofs.Catalog.Inline
/-!
# The tests of a catalog

The tests are the function items with a test attribute that stand directly in an inline module.
-/

namespace TestDouble

namespace Tree

theorem statement_at {body statement : Tree} {index : Nat} (found : body.statements[index]? = some statement) :
    ∃ children, body = .node (.group .brace) children ∧ children[index + 1]? = some statement := by
  unfold statements at found
  split at found
  · exact ⟨_, rfl, found⟩
  · cases found

end Tree

namespace Catalog

theorem testsOf_module {path : ModulePath} {item : Tree} {name : String} {content : List Tree}
    (module : item.asModule? = some ⟨name, some content⟩) :
    testsOf path item = testsIn (path ++ [name]) content := by
  obtain ⟨attributes, visibility, unsafety, word, inner, rfl⟩ := Tree.inline_module_shape module
  rfl

theorem testsOf_function {path : ModulePath} {item : Tree} {function : Function}
    (found : item.asFunction? = some function) :
    testsOf path item = if isTest function then [⟨path, function⟩] else [] := by
  obtain ⟨outer, visibility, signature, body, rfl, -⟩ := Tree.function_shape found
  cases found
  rfl

theorem testsOf_of_neither {path : ModulePath} {item : Tree}
    (notModule : ∀ name content, item.asModule? ≠ some ⟨name, some content⟩)
    (notFunction : item.asFunction? = none) : testsOf path item = [] := by
  unfold testsOf
  split
  · exact absurd rfl (notModule _ _)
  · rw [notFunction]
  · rfl

theorem testsOf_eq (path : ModulePath) (item : Tree) :
    testsOf path item =
      match item.asModule? with
      | some ⟨name, some content⟩ => testsIn (path ++ [name]) content
      | _ =>
        match item.asFunction? with
        | some function => if isTest function then [⟨path, function⟩] else []
        | none => [] := by
  rcases item.inline_or_other with ⟨name, content, module⟩ | other
  · rw [testsOf_module module, module]
  · split
    · rename_i module
      exact absurd module (other _ _)
    · cases function : item.asFunction? with
      | some function => exact testsOf_function function
      | none => exact testsOf_of_neither other function

/-- An item yields tests only by being one or by being a module. -/
theorem mem_testsOf {path : ModulePath} {item : Tree} {test : Test} :
    test ∈ testsOf path item ↔
      (∃ name content, item.asModule? = some ⟨name, some content⟩ ∧ test ∈ testsIn (path ++ [name]) content) ∨
        test.module = path ∧ item.asFunction? = some test.function ∧ isTest test.function = true := by
  constructor
  · intro member
    rw [testsOf_eq] at member
    split at member
    · rename_i module
      exact .inl ⟨_, _, module, member⟩
    · split at member
      · rename_i function found
        split at member
        · rename_i isTest
          cases List.mem_singleton.mp member
          exact .inr ⟨rfl, found, isTest⟩
        · cases member
      · cases member
  · rintro (⟨name, content, module, inside⟩ | ⟨same, found, isTest⟩)
    · rw [testsOf_module module]
      exact inside
    · rw [testsOf_function found, if_pos isTest, ← same]
      exact List.mem_singleton.mpr rfl

theorem mem_testsIn {path : ModulePath} {items : List Tree} {test : Test} :
    test ∈ testsIn path items ↔
      ∃ below content, test.module = path ++ below ∧ Inline items below content ∧
        ∃ item ∈ content, item.asFunction? = some test.function ∧ isTest test.function = true := by
  induction items using Tree.byContents generalizing path with
  | step items ih =>
      rw [testsIn_eq_flatMap, List.mem_flatMap]
      constructor
      · rintro ⟨item, member, inside⟩
        rcases mem_testsOf.mp inside with ⟨name, content, module, deeper⟩ | ⟨same, found, isTest⟩
        · obtain ⟨below, held, place, reached, test⟩ := (ih item member name content module).mp deeper
          refine ⟨name :: below, held, ?_, .inner member module reached, test⟩
          rw [place, List.append_assoc]
          rfl
        · exact ⟨[], items, by rw [same, List.append_nil], .here items, item, member, found, isTest⟩
      · rintro ⟨below, content, place, reached, item, member, found, isTest⟩
        cases reached with
        | here =>
            rw [List.append_nil] at place
            exact ⟨item, member, mem_testsOf.mpr (.inr ⟨place, found, isTest⟩)⟩
        | @inner _ outer name held rest _ outerIn module deeper =>
            refine ⟨outer, outerIn, mem_testsOf.mpr (.inl ⟨name, held, module, ?_⟩)⟩
            refine (ih outer outerIn name held module).mpr ⟨rest, content, ?_, deeper, item, member, found, isTest⟩
            rw [place, List.append_assoc]
            rfl

/-- The tests of a catalog are the test items of its inline modules. -/
theorem mem_tests {root : String} {items : List Tree} {test : Test} :
    test ∈ (ofItems root items).tests ↔
      ∃ content, Inline items test.module content ∧
        ∃ item ∈ content, item.asFunction? = some test.function ∧ isTest test.function = true := by
  constructor
  · intro member
    obtain ⟨below, content, place, reached, item⟩ := mem_testsIn.mp member
    rw [List.nil_append] at place
    exact ⟨content, place ▸ reached, item⟩
  · rintro ⟨content, reached, item⟩
    exact mem_testsIn.mpr ⟨test.module, content, rfl, reached, item⟩

theorem collected_of_test {module : Tree} {catalog : Catalog} (collected : ofModule module = .ok catalog)
    {test : Test} (member : test ∈ catalog.tests) : ∃ scope, (test.module, scope) ∈ catalog.scopes := by
  obtain ⟨name, items, _, rfl⟩ := ofModule_eq_ok collected
  obtain ⟨content, reached, _⟩ := mem_tests.mp member
  exact ⟨Scope.ofItems content, mem_scopes.mpr ⟨content, reached, rfl⟩⟩

end Catalog

end TestDouble
