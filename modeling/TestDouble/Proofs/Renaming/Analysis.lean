import TestDouble.Expansion
import TestDouble.Proofs.Catalog.Declared
import TestDouble.Proofs.Renaming.Specification
import TestDouble.Proofs.Site.Location
/-!
# Renaming and the analysis

The tests of a steady module are analysed under renamed settings with the same outcome, so the specifications of
the renamed module are those of the module, renamed, in the same order.
-/

namespace TestDouble

variable {still : Prop} {σ : Equiv.Perm String}

namespace Problem.Alike

theorem append {problems other problems' other' : List Problem} (first : Alike still problems other)
    (second : Alike still problems' other') : Alike still (problems ++ problems') (other ++ other') where
  empty := by rw [List.append_eq_nil_iff, List.append_eq_nil_iff, first.empty, second.empty]
  same stays := by rw [first.same stays, second.same stays]

end Problem.Alike

/-- That a test is known under names that stay, and what its creation sites name as well if messages are to. -/
structure Test.Steady (still : Prop) (σ : Equiv.Perm String) (settings : Settings) (test : Test) : Prop where
  module : test.module.map σ = test.module
  name : σ test.function.name = test.function.name
  markers : ∀ marker ∈ (Sites.ofBody settings test.function.body).markers, Specification.QuietMarker still σ marker

/-! ### Steady modules -/

/-- What resolving finds in a steady module is steady. -/
theorem Catalog.steady_ofItems {root : String} {items : List Tree} (own : σ root = root)
    (steady : ∀ item ∈ items, item.Steady still σ) : (Catalog.ofItems root items).Steady still σ where
  root := own
  aliases stays module names place name target resolved := by
    cases found_of_resolve resolved with
    | declared inline declared =>
        cases declared with
        | type _ last =>
            obtain ⟨before, after, split, _⟩ := last
            have member : (name, some target) ∈ Scope.typesOf _ := split ▸ List.mem_append_right _ List.mem_cons_self
            obtain ⟨item, inside, found⟩ := List.mem_flatMap.mp member
            exact ((inline.steady steady).2 item inside).declaredType? (Option.mem_toList.mp found) stays
  contracts module names place contract resolved := by
    cases found_of_resolve resolved with
    | declared inline declared =>
        cases declared with
        | @trait _ last =>
            obtain ⟨before, after, split, _⟩ := last
            have member : (_, contract) ∈ Scope.traitsOf _ := split ▸ List.mem_append_right _ List.mem_cons_self
            obtain ⟨item, inside, listed⟩ := List.mem_flatMap.mp member
            obtain ⟨found, viewed, same⟩ := Option.map_eq_some_iff.mp (Option.mem_toList.mp listed)
            cases same
            exact ((inline.steady steady).2 item inside).asTrait? viewed

theorem Tree.Steady.at? {tree part : Tree} {position : Position} (steady : tree.Steady still σ)
    (found : tree.at? position = some part) : part.Steady still σ := by
  induction position generalizing tree with
  | nil =>
      cases found
      exact steady
  | cons index rest ih =>
      cases tree with
      | token t => cases found
      | node kind children =>
          obtain ⟨child, member, below⟩ := Tree.at?_child.mp found
          exact ih (steady.child (List.mem_of_getElem? member)) below

theorem Test.steady_of_mem (blank : σ "" = "") {root : String} {items : List Tree}
    (steady : ∀ item ∈ items, item.Steady still σ) {test : Test} (member : test ∈ (Catalog.ofItems root items).tests) :
    test.Steady still σ {} := by
  obtain ⟨content, reached, item, inside, found, _⟩ := Catalog.mem_tests.mp member
  obtain ⟨module, content⟩ := reached.steady steady
  obtain ⟨name, body⟩ := (content item inside).asFunction? blank found
  refine ⟨module, name, fun marker listed stays => ?_⟩
  obtain ⟨marks, index, rest, statement, statementAt, _, foundAt⟩ := Sites.mem_markers.mp listed
  obtain ⟨children, same, childAt⟩ := Tree.statement_at statementAt
  have own : marker.toTree.Steady still σ :=
    (Tree.Steady.child (same ▸ body) (List.mem_of_getElem? childAt)).at? foundAt
  have quoted : marker.toTree.quotedParts = (Specification.typeArguments? marker.callee).getD [] := if_pos marks
  exact quoted ▸ own.own_quotes stays

namespace Analysis

theorem outcome_agree (keeps : Keeps σ) {catalog : Catalog} (steady : catalog.Steady still σ) {settings : Settings}
    {test : Test} (own : test.Steady still σ settings) :
    Agree still (Option.Rel (Specification.Renamed σ)) (ofTest settings catalog test).outcome
      (ofTest (settings.rename σ) (catalog.rename σ) (test.rename σ)).outcome := by
  have found : Sites.ofBody (settings.rename σ) (test.rename σ).function.body =
      (Sites.ofBody settings test.function.body).rename σ := Sites.ofBody_rename keeps settings test.function.body
  simp only [ofTest, found]
  exact Specification.ofTest_agree keeps steady _ own.module own.name own.markers

theorem problems_alike (keeps : Keeps σ) {catalog : Catalog} (steady : catalog.Steady still σ) {settings : Settings}
    {test : Test} (own : test.Steady still σ settings) :
    Problem.Alike still (ofTest settings catalog test).problems
      (ofTest (settings.rename σ) (catalog.rename σ) (test.rename σ)).problems := by
  have agree := outcome_agree keeps steady own
  have reports : (ofTest settings catalog test).outcome ≠ .error [] := Specification.ofTest_reports
  have reports' : (ofTest (settings.rename σ) (catalog.rename σ) (test.rename σ)).outcome ≠ .error [] :=
    Specification.ofTest_reports
  rw [problems, problems]
  generalize (ofTest settings catalog test).outcome = result,
    (ofTest (settings.rename σ) (catalog.rename σ) (test.rename σ)).outcome = result' at agree reports reports'
  cases agree with
  | ok _ => exact .refl []
  | error same =>
      refine ⟨⟨fun none => ?_, fun none => ?_⟩, fun stays => (same stays).symm⟩
      · exact absurd (congrArg Except.error none) reports'
      · exact absurd (congrArg Except.error none) reports

end Analysis

theorem duplicateNames_renamed {specifications others : List Specification}
    (renamed : List.Forall₂ (Specification.Renamed σ) specifications others) (used : List (String × String)) :
    duplicateNames used others = duplicateNames used specifications := by
  induction renamed generalizing used with
  | nil => rfl
  | cons same _ ih => rw [duplicateNames, duplicateNames, same.generatedName, same.key, ih]

theorem analyses_renamed (keeps : Keeps σ) {catalog : Catalog} (steady : catalog.Steady still σ) {settings : Settings}
    {tests : List Test} (own : ∀ test ∈ tests, test.Steady still σ settings) :
    Problem.Alike still ((tests.map (Analysis.ofTest settings catalog)).flatMap Analysis.problems)
        (((tests.map (Test.rename σ)).map (Analysis.ofTest (settings.rename σ) (catalog.rename σ))).flatMap
          Analysis.problems) ∧
      List.Forall₂ (Specification.Renamed σ)
        ((tests.map (Analysis.ofTest settings catalog)).filterMap Analysis.specification?)
        (((tests.map (Test.rename σ)).map (Analysis.ofTest (settings.rename σ) (catalog.rename σ))).filterMap
          Analysis.specification?) := by
  induction tests with
  | nil => exact ⟨.refl [], .nil⟩
  | cons test rest ih =>
      have here := own test List.mem_cons_self
      obtain ⟨problems, specifications⟩ := ih fun test member => own test (List.mem_cons_of_mem _ member)
      simp only [List.map_cons, List.flatMap_cons]
      refine ⟨(Analysis.problems_alike keeps steady here).append problems, ?_⟩
      have agree := Analysis.outcome_agree keeps steady here
      rw [List.filterMap_cons, List.filterMap_cons, Analysis.specification?, Analysis.specification?]
      generalize (Analysis.ofTest settings catalog test).outcome = result,
        (Analysis.ofTest (settings.rename σ) (catalog.rename σ) (test.rename σ)).outcome = result' at agree
      cases agree with
      | error _ => exact specifications
      | ok same =>
          cases same with
          | none => exact specifications
          | some same => exact .cons same specifications

/-- A steady module is analysed after renaming with the same outcome. -/
theorem analyze_agree (keeps : Keeps σ) {catalog : Catalog} (steady : catalog.Steady still σ) {settings : Settings}
    (own : ∀ test ∈ catalog.tests, test.Steady still σ settings) :
    Agree still (List.Forall₂ (Specification.Renamed σ)) (analyze settings catalog)
      (analyze (settings.rename σ) (catalog.rename σ)) := by
  obtain ⟨problems, specifications⟩ := analyses_renamed keeps steady own
  have tests : (catalog.rename σ).tests = catalog.tests.map (Test.rename σ) := rfl
  have all := problems.append (.refl (duplicateNames []
    ((catalog.tests.map (Analysis.ofTest settings catalog)).filterMap Analysis.specification?)))
  simp only [analyze, Analysis.all, List.isEmpty_iff, tests, duplicateNames_renamed specifications, all.empty]
  split
  · exact .ok specifications
  · exact .error fun stays => (all.same stays).symm

end TestDouble
