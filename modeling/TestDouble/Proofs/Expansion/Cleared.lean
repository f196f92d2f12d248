import TestDouble.Proofs.Catalog.Bound
import TestDouble.Proofs.Expansion.Agreement
import TestDouble.Proofs.Settings
import TestDouble.Proofs.Source.Reading
/-!
# An expansion leaves no sites

An expanded module has the tests that it had before, and the search that found the creation sites and the
configurations in them finds nothing any more. It looks where it looked before: at all depths, into closures and
into what invocations are given, which are the expressions that binding puts there.
-/

namespace TestDouble.Expansion
open TestDouble.Tree

variable {settings : Settings} {module : Tree} {root : String} {items : List Tree}
  {specifications : List Specification}

/-- What is found in a test is bound: a test with a creation site has a specification, which has its key. -/
theorem reached_of_test (analyzed : analyze settings (.ofItems root items) = .ok specifications) {test : Test}
    (member : test ∈ (Catalog.ofItems root items).tests) {statement : Tree}
    (inside : statement ∈ test.function.body.statements) :
    Binder.Reached ⟨settings, root, specifications.map Specification.key⟩
      ⟨test.module, some (test.key root, true)⟩ statement where
  test := rfl
  keyed call found := by
    have marked : call ∈ (sites settings test).markers := by
      refine List.mem_filterMap.mpr ⟨.marker call, ?_, rfl⟩
      rw [sites, Sites.ofBody, Site.ofTrees_eq_flatMap]
      exact List.mem_flatMap.mpr ⟨statement, inside, found⟩
    obtain ⟨specification, specified, made⟩ := specification_of_test analyzed member marked
    exact ⟨test.key root, rfl, key_of_test made ▸ List.mem_map_of_mem specified⟩

/-- Nothing is found in a test after binding. -/
theorem sites_boundTest (apart : settings.Apart) (analyzed : analyze settings (.ofItems root items) = .ok specifications)
    {test : Test} (member : test ∈ (Catalog.ofItems root items).tests) (sound : test.function.Sound) :
    (sites settings (Binder.boundTest ⟨settings, root, specifications.map Specification.key⟩ test)).found = [] := by
  rw [sites, Sites.ofBody, Site.ofTrees_eq_flatMap, List.flatMap_eq_nil_iff]
  intro statement inside
  rw [Binder.boundTest, Binder.boundFunction, Binder.statements_bind sound.braced] at inside
  obtain ⟨before, held, rfl⟩ := List.mem_map.mp inside
  refine Binder.bind_clear apart ?_ (reached_of_test analyzed member held)
  have bodied := sound.body
  obtain ⟨inner, statements, same⟩ := body_shape sound.braced
  rw [same, sound_group, soundAll_eq_all, List.all_eq_true] at bodied
  rw [same] at held
  exact bodied before (List.mem_cons_of_mem _ held)

/-- The tests of an expanded module are those of the module before, after binding. -/
theorem tests_emit (sound : soundAll items = true) (inline : module.asModule? = some ⟨root, some items⟩)
    (specifications : List Specification) (keys : List String) :
    ∃ content, (emit settings specifications (bindSites settings keys module).1).asModule? = some ⟨root, some content⟩ ∧
      (Catalog.ofItems root content).tests =
        (Catalog.ofItems root items).tests.map (Binder.boundTest ⟨settings, root, keys⟩) := by
  obtain ⟨attributes, visibility, unsafety, word, inner, -, emitted⟩ :=
    emit_content settings inline specifications keys
  rw [emitted]
  refine ⟨_, rfl, ?_⟩
  -- the import and the units are written as tokens, and hold no test
  have units : (specifications.map Specification.unit ++
      [(Dispatcher.ofSpecifications settings.dispatcher specifications).unit]).flatMap (Catalog.testsOf []) = [] := by
    rw [List.flatMap_append, List.flatMap_map, List.append_eq_nil_iff, List.flatMap_eq_nil_iff]
    exact ⟨fun specification _ => rfl, rfl⟩
  show Catalog.testsIn [] _ = (Catalog.testsIn [] items).map _
  rw [← Catalog.testsIn_bind sound, Catalog.testsIn_eq_flatMap, Catalog.testsIn_eq_flatMap, List.flatMap_cons,
    List.flatMap_append, units, List.append_nil]
  rfl

/-- The module and the name of every test. -/
def testNames (catalog : Catalog) : List (ModulePath × String) :=
  catalog.tests.map fun test => (test.module, test.function.name)

/--
Nothing is left behind. Whatever settings an annotation gives, and whatever module is expanded, the expanded
module has the tests that it had before, and nothing is found in any of them.
-/
theorem expand_clear {arguments text : String} {output : Tree} (asked : Settings.read arguments = .ok settings)
    (read : readModule text = some module) (expanded : expand settings module = .ok output) :
    ∃ before after, Catalog.ofModule module = .ok before ∧ Catalog.ofModule output = .ok after ∧
      testNames after = testNames before ∧ ∀ test ∈ after.tests, (sites settings test).found = [] := by
  have sound := sound_readModule read
  have apart := (Settings.named_of_read asked).apart
  obtain ⟨before, collected⟩ : ∃ before, Catalog.ofModule module = .ok before := by
    unfold expand at expanded
    split at expanded
    · cases expanded
    · exact ⟨_, by assumption⟩
  obtain ⟨root, items, inline, rfl⟩ := Catalog.ofModule_eq_ok collected
  have itemsSound := soundAll_content sound inline
  obtain ⟨specifications, bound, analyzed, bindings, rfl⟩ := (expand_eq_ok_iff inline).mp expanded
  obtain ⟨content, inlined, tests⟩ :=
    tests_emit itemsSound inline specifications (specifications.map Specification.key)
  rw [bindings] at inlined
  have each : ∀ test ∈ (Catalog.ofItems root items).tests, test.function.Sound :=
    fun test member => Catalog.sound_of_test itemsSound member
  refine ⟨_, _, collected, ofModule_inline inlined, ?_, ?_⟩
  · rw [testNames, testNames, tests, List.map_map]
    exact List.map_congr_left fun test member => congrArg (Prod.mk _) (Binder.name_bound (each test member))
  · intro test member
    rw [tests] at member
    obtain ⟨before, held, rfl⟩ := List.mem_map.mp member
    exact sites_boundTest apart analyzed held (each before held)

/-- A test with a creation site in a closure and a configuration, both in what an invocation is given. -/
def givenSites : String :=
  "mod a \x7b trait I \x7b fn m(&self) -> u8; \x7d " ++
  "#[test] fn t() \x7b assert!(|| Ghost::of::<dyn I>(), [a.m().returns(1)]); \x7d \x7d"

theorem expand_clear_given :
    ∃ settings module output before, Settings.read "" = .ok settings ∧ readModule givenSites = some module ∧
      expand settings module = .ok output ∧ Catalog.ofModule module = .ok before ∧
      before.tests.map (fun test => (sites settings test).found.length) = [2] ∧
      ∃ after, Catalog.ofModule output = .ok after ∧ testNames after = testNames before ∧
        ∀ test ∈ after.tests, (sites settings test).found = [] := by
  have asked : Settings.read "" = .ok {} := by decide +kernel
  have counted : ((readModule givenSites).bind fun module => (expand {} module).toOption.bind fun _ =>
      (Catalog.ofModule module).toOption.map fun catalog =>
        catalog.tests.map fun test => (sites {} test).found.length) = some [2] := by
    decide +kernel
  obtain ⟨module, read, counted⟩ := Option.bind_eq_some_iff.mp counted
  cases expanded : expand {} module with
  | error problems =>
      rw [expanded] at counted
      cases counted
  | ok output =>
      rw [expanded] at counted
      obtain ⟨before, after, collected, inlined, names, clear⟩ := expand_clear asked read expanded
      rw [collected] at counted
      exact ⟨_, module, output, before, asked, read, expanded, collected, Option.some.inj counted, after, inlined,
        names, clear⟩

end TestDouble.Expansion
