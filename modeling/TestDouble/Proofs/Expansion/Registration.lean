import TestDouble.Expansion
import TestDouble.Proofs.Catalog.Keys
import TestDouble.Proofs.Specification
import TestDouble.Run.Registry
/-!
# What is registered

After an analysis without problems every test with creation sites has a specification. If the tests are
told apart by their names, no two specifications share a key or a generated name. Then the dispatcher
registers the key of a test once, with the type generated for it, and finds this type at run time.
-/

namespace TestDouble

/-- In a list whose elements differ in a property, only one of them has the value that one has. -/
theorem List.filter_distinct {α β : Type} [DecidableEq β] {property : α → β} {entries : List α} {entry : α}
    (distinct : entries.Pairwise fun first second => property first ≠ property second) (member : entry ∈ entries) :
    entries.filter (fun other => decide (property other = property entry)) = [entry] := by
  induction entries with
  | nil => cases member
  | cons first rest ih =>
      obtain ⟨apart, below⟩ := List.pairwise_cons.mp distinct
      rcases List.mem_cons.mp member with rfl | later
      · have others : rest.filter (fun other => decide (property other = property entry)) = [] := by
          rw [List.filter_eq_nil_iff]
          intro other inside same
          exact apart other inside (of_decide_eq_true same).symm
        simp only [List.filter_cons, decide_true, if_true, others]
      · have different : decide (property first = property entry) = false :=
          decide_eq_false (apart entry later)
        simp only [List.filter_cons, different, Bool.false_eq_true, if_false]
        exact ih below later

/-! ### Specifications of an analysis -/

namespace Expansion

variable {settings : Settings} {catalog : Catalog} {specifications : List Specification}

/-- What the analysis of a test finds in its body. -/
def sites (settings : Settings) (test : Test) : Sites := Sites.ofBody settings test.function.body

theorem analyze_eq_ok (analyzed : analyze settings catalog = .ok specifications) :
    specifications = catalog.tests.filterMap
        (fun test => (Analysis.ofTest settings catalog test).specification?) ∧
      (∀ test ∈ catalog.tests, ∃ found, Specification.ofTest catalog test (sites settings test) = .ok found) ∧
      duplicateNames [] specifications = [] := by
  unfold analyze at analyzed
  simp only at analyzed
  split at analyzed
  · rename_i silent
    cases analyzed
    obtain ⟨fine, apart⟩ := List.append_eq_nil_iff.mp (List.isEmpty_iff.mp silent)
    refine ⟨List.filterMap_map, ?_, apart⟩
    intro test member
    have none := List.flatMap_eq_nil_iff.mp fine _ (List.mem_map_of_mem member)
    cases outcome : Specification.ofTest catalog test (sites settings test) with
    | ok found => exact ⟨found, rfl⟩
    | error problems =>
        have empty : problems = [] := by
          unfold Analysis.problems at none
          rw [show (Analysis.ofTest settings catalog test).outcome = .error problems from outcome] at none
          exact none
        rw [empty] at outcome
        exact absurd outcome Specification.ofTest_reports
  · cases analyzed

theorem specification?_eq_some {test : Test} {specification : Specification} :
    (Analysis.ofTest settings catalog test).specification? = some specification ↔
      Specification.ofTest catalog test (sites settings test) = .ok (some specification) := by
  unfold Analysis.specification?
  cases made : Specification.ofTest catalog test (sites settings test) with
  | ok found =>
      rw [show (Analysis.ofTest settings catalog test).outcome = .ok found from made]
      exact ⟨congrArg Except.ok, Except.ok.inj⟩
  | error problems =>
      rw [show (Analysis.ofTest settings catalog test).outcome = .error problems from made]
      constructor
      · intro same
        cases same
      · intro same
        cases same

theorem mem_specifications (analyzed : analyze settings catalog = .ok specifications)
    {specification : Specification} :
    specification ∈ specifications ↔ ∃ test ∈ catalog.tests,
      Specification.ofTest catalog test (sites settings test) = .ok (some specification) := by
  rw [(analyze_eq_ok analyzed).1, List.mem_filterMap]
  exact exists_congr fun test => and_congr_right fun _ => specification?_eq_some

theorem specification_of_test (analyzed : analyze settings catalog = .ok specifications) {test : Test}
    (member : test ∈ catalog.tests) {marker : Call} (found : marker ∈ (sites settings test).markers) :
    ∃ specification ∈ specifications,
      Specification.ofTest catalog test (sites settings test) = .ok (some specification) := by
  obtain ⟨result, made⟩ := (analyze_eq_ok analyzed).2.1 test member
  cases result with
  | some specification => exact ⟨specification, (mem_specifications analyzed).mpr ⟨test, member, made⟩, made⟩
  | none =>
      rcases Specification.ofTest_eq_ok made with ⟨empty, _⟩ | ⟨_, some, _⟩
      · rw [empty] at found
        cases found
      · cases some

/-! ### Names of specifications -/

theorem key_of_test {test : Test} {specification : Specification}
    (made : Specification.ofTest catalog test (sites settings test) = .ok (some specification)) :
    specification.key = test.key catalog.root := by
  obtain ⟨place, contract, extracted⟩ := Specification.extracted_of_ofTest made
  exact extracted.key

theorem specification_keys (analyzed : analyze settings catalog = .ok specifications)
    (distinct : catalog.tests.Pairwise fun test other => test.key catalog.root ≠ other.key catalog.root) :
    specifications.Pairwise fun first second => first.key ≠ second.key := by
  rw [(analyze_eq_ok analyzed).1]
  refine distinct.filterMap _ ?_
  intro test other different specification found specification' found' same
  rw [key_of_test (specification?_eq_some.mp found), key_of_test (specification?_eq_some.mp found')] at same
  exact different same

theorem not_mem_duplicateNames_cons {used : List (String × String)} {first : Specification}
    {rest : List Specification} {name : String} :
    .duplicateName name ∉ duplicateNames used (first :: rest) ↔
      (first.generatedName = name → ∀ last, used.lookup name = some last → last = first.key) ∧
        .duplicateName name ∉ duplicateNames ((first.generatedName, first.key) :: used) rest := by
  rw [duplicateNames, List.mem_append, not_or]
  refine and_congr_left fun _ => ?_
  by_cases own : first.generatedName = name
  · subst own
    cases used.lookup first.generatedName with
    | none => simp
    | some last => simp
  · refine ⟨fun _ same => absurd same own, fun _ reported => ?_⟩
    have named := List.mem_singleton.mp (List.mem_ite_nil_right.mp reported).2
    exact own (Problem.duplicateName.inj named).symm

/-- A name is not reported exactly if all specifications that use it have one key. -/
theorem not_mem_duplicateNames {used : List (String × String)} {specifications : List Specification}
    {name : String} :
    .duplicateName name ∉ duplicateNames used specifications ↔
      ∃ key, (∀ last, used.lookup name = some last → last = key) ∧
        ∀ specification ∈ specifications, specification.generatedName = name → specification.key = key := by
  induction specifications generalizing used with
  | nil =>
      refine ⟨fun _ => ?_, fun _ reported => nomatch reported⟩
      cases used.lookup name with
      | none => exact ⟨name, nofun, nofun⟩
      | some key => exact ⟨key, fun last same => (Option.some.inj same).symm, nofun⟩
  | cons first rest ih =>
      rw [not_mem_duplicateNames_cons, ih, List.lookup_cons]
      simp only [List.forall_mem_cons]
      by_cases own : first.generatedName = name
      · subst own
        simp only [beq_self_eq_true, Option.some.injEq, forall_eq', forall_const]
        constructor
        · rintro ⟨before, key, rfl, behind⟩
          exact ⟨first.key, before, rfl, behind⟩
        · rintro ⟨key, before, rfl, behind⟩
          exact ⟨before, first.key, rfl, behind⟩
      · have other : (name == first.generatedName) = false := beq_eq_false_iff_ne.mpr (Ne.symm own)
        simp only [other, own, false_imp_iff, true_and]

/-- Two specifications of one generated name have the same key unless the name is reported. -/
theorem key_of_generatedName {specifications : List Specification} {specification other : Specification}
    (member : specification ∈ specifications) (otherIn : other ∈ specifications)
    (same : other.generatedName = specification.generatedName)
    (fine : .duplicateName specification.generatedName ∉ duplicateNames [] specifications) :
    other.key = specification.key := by
  obtain ⟨key, -, agreed⟩ := not_mem_duplicateNames.mp fine
  rw [agreed other otherIn same, agreed specification member rfl]

/-- Without duplicates, specifications with different keys have different generated names. -/
theorem generatedNames_distinct (fine : duplicateNames [] specifications = [])
    (keys : specifications.Pairwise fun first second => first.key ≠ second.key) :
    specifications.Pairwise fun first second => first.generatedName ≠ second.generatedName := by
  refine keys.imp_of_mem fun member otherIn different same => different ?_
  exact key_of_generatedName otherIn member same (by simp [fine])

theorem unit_unique (analyzed : analyze settings catalog = .ok specifications)
    (keys : specifications.Pairwise fun first second => first.key ≠ second.key)
    {specification other : Specification} (member : specification ∈ specifications)
    (otherIn : other ∈ specifications) (same : other.unitName = specification.unitName) :
    other = specification := by
  have names := generatedNames_distinct (analyze_eq_ok analyzed).2.2 keys
  have sameName : other.generatedName = specification.generatedName := String.append_right_inj _ |>.mp same
  have inside : other ∈ specifications.filter
      (fun candidate => decide (candidate.generatedName = specification.generatedName)) :=
    List.mem_filter.mpr ⟨otherIn, decide_eq_true sameName⟩
  rw [List.filter_distinct names member] at inside
  exact List.mem_singleton.mp inside

end Expansion

/-! ### The registry of the dispatcher -/

def Specification.registration (specification : Specification) : Registration :=
  ⟨specification.key, specification.unitName, specification.generatedName⟩

namespace Dispatcher

variable {specifications : List Specification}

/-- The key of a specification is registered once, with its own unit and type. -/
theorem registered_once (name : String)
    (keys : specifications.Pairwise fun first second => first.key ≠ second.key) {specification : Specification}
    (member : specification ∈ specifications) :
    (ofSpecifications name specifications).registrations.filter
        (fun entry => decide (entry.key = specification.key)) = [specification.registration] := by
  have entries : (specifications.map Specification.registration).Pairwise fun first second =>
      first.key ≠ second.key := List.pairwise_map.mpr keys
  exact List.filter_distinct entries (List.mem_map_of_mem member)

end Dispatcher

namespace Run.Registry

/-- The registry that a dispatcher fills, in which each entry has the type that its unit holds. -/
def ofRegistrations (type : Registration → Factory) (registrations : List Registration) : Registry :=
  registrations.foldl (fun registry entry => registry.register entry.key (type entry)) {}

theorem lookup_register (registry : Registry) (key other : String) (factory : Factory) :
    (registry.register key factory).factories.lookup other =
      if other = key then some factory else registry.factories.lookup other :=
  lookup_place key other factory registry.factories

theorem lookup_other (type : Registration → Factory) {registrations : List Registration} {key : String}
    (other : ∀ entry ∈ registrations, entry.key ≠ key) (registry : Registry) :
    (registrations.foldl (fun registry entry => registry.register entry.key (type entry))
      registry).factories.lookup key = registry.factories.lookup key := by
  induction registrations generalizing registry with
  | nil => rfl
  | cons first rest ih =>
      have different : ¬key = first.key := fun same => other first List.mem_cons_self same.symm
      rw [List.foldl_cons, ih (fun entry member => other entry (List.mem_cons_of_mem _ member)),
        lookup_register, if_neg different]

theorem lookup_registered (type : Registration → Factory) {registrations : List Registration}
    (keys : registrations.Pairwise fun first second => first.key ≠ second.key) {entry : Registration}
    (member : entry ∈ registrations) (registry : Registry) :
    (registrations.foldl (fun registry entry => registry.register entry.key (type entry))
      registry).factories.lookup entry.key = some (type entry) := by
  induction registrations generalizing registry with
  | nil => cases member
  | cons first rest ih =>
      obtain ⟨apart, below⟩ := List.pairwise_cons.mp keys
      rw [List.foldl_cons]
      rcases List.mem_cons.mp member with rfl | later
      · rw [lookup_other type (fun other inside => (apart other inside).symm), lookup_register, if_pos rfl]
      · exact ih below later _

/-- An entry whose type implements a contract answers to a creation site of its key with that contract. -/
theorem factory_registered (type : Registration → Factory) {registrations : List Registration}
    (keys : registrations.Pairwise fun first second => first.key ≠ second.key) {entry : Registration}
    (member : entry ∈ registrations) :
    (ofRegistrations type registrations).factory entry.key (type entry).contract = .ok (type entry) := by
  unfold factory ofRegistrations
  rw [lookup_registered type keys member]
  exact if_pos rfl

end Run.Registry

end TestDouble
