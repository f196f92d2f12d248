import TestDouble.Proofs.Expansion.Agreement
/-!
# The names of the appended units

A successful expansion appends one unit for every test with creation sites, and the unit of the dispatcher
behind them. Units of different tests have different names, and so have their keys, unless the tests stand in
modules of one path under one name: these are not told apart, so a repeated test repeats its unit and its key.
-/

namespace TestDouble

namespace Name

/-- No generated name completes the name of the unit of a test to that of the dispatcher. -/
theorem unit_generated_ne_aggregate (root : String) (module : ModulePath) (function : String) :
    unit (generated root module function) ≠ aggregate := by
  intro same
  have joined : generated root module function = "ghost" := (String.append_right_inj "__pinky_").mp same
  have mark := underscore_generated root module function
  rw [joined] at mark
  exact absurd mark (by decide)

theorem unit_inj {generated generated' : String} : unit generated = unit generated' ↔ generated = generated' :=
  String.append_right_inj _

end Name

/-- The name of a module that is written out token by token: it stands between `mod` and the content. -/
def Tree.writtenModule? : Tree → Option String
  | .node .itemVerbatim parts =>
    match parts.reverse with
    | .node (.group .brace) _ :: .token (.ident name) :: .token (.ident "mod") :: _ => some name
    | _ => none
  | _ => none

@[simp]
theorem Specification.writtenModule?_unit (specification : Specification) :
    specification.unit.writtenModule? = some specification.unitName := by
  simp [unit, Tree.writtenModule?, Tree.ident, Tree.group]

@[simp]
theorem Dispatcher.writtenModule?_unit (dispatcher : Dispatcher) :
    dispatcher.unit.writtenModule? = some Name.aggregate := by
  simp [unit, Tree.writtenModule?, Tree.ident, Tree.group]

/-- Properties that agree on when two entries are alike repeat values in the same lists. -/
theorem List.nodup_map_congr {α β γ : Type} {f : α → β} {g : α → γ} {entries : List α}
    (alike : ∀ entry ∈ entries, ∀ other ∈ entries, f entry = f other ↔ g entry = g other) :
    (entries.map f).Nodup ↔ (entries.map g).Nodup := by
  simp only [List.Nodup, List.pairwise_map]
  constructor
  · exact fun distinct => distinct.imp_of_mem fun member otherIn different same =>
      different ((alike _ member _ otherIn).mpr same)
  · exact fun distinct => distinct.imp_of_mem fun member otherIn different same =>
      different ((alike _ member _ otherIn).mp same)

namespace Expansion

variable {settings : Settings} {catalog : Catalog} {specifications : List Specification} {module : Tree}
  {root : String} {items : List Tree}

/-- The tests with creation sites. -/
def creators (settings : Settings) (catalog : Catalog) : List Test :=
  catalog.tests.filter fun test => !(sites settings test).markers.isEmpty

/-- The name of the unit of a test. -/
def unitName (root : String) (test : Test) : String :=
  Name.unit (Name.generated root test.module test.function.name)

theorem mem_creators {test : Test} :
    test ∈ creators settings catalog ↔ test ∈ catalog.tests ∧ (sites settings test).markers ≠ [] := by
  simp [creators, List.mem_filter]

/-- The specifications are those of the tests with creation sites, in their order. -/
theorem specifications_map (analyzed : analyze settings catalog = .ok specifications) {α : Type}
    {f : Specification → α} {g : Test → α}
    (agree : ∀ test specification,
      Specification.ofTest catalog test (sites settings test) = .ok (some specification) → f specification = g test) :
    specifications.map f = (creators settings catalog).map g := by
  obtain ⟨rfl, fine, -⟩ := analyze_eq_ok analyzed
  rw [creators, List.map_filterMap, ← List.filterMap_eq_map, List.filterMap_filter]
  refine List.filterMap_congr fun test member => ?_
  obtain ⟨found, made⟩ := fine test member
  cases found with
  | none =>
      have empty : (sites settings test).markers = [] := by
        rcases Specification.ofTest_eq_ok made with ⟨empty, _⟩ | ⟨_, some, _⟩
        · exact empty
        · cases some
      have none : (Analysis.ofTest settings catalog test).specification? = none := by
        rw [Analysis.specification?, show (Analysis.ofTest settings catalog test).outcome = .ok none from made]
      simp [none, empty]
  | some specification =>
      have filled : (sites settings test).markers ≠ [] := by
        intro empty
        rw [Specification.ofTest, empty] at made
        cases made
      rw [specification?_eq_some.mpr made]
      simp [filled, agree test specification made]

/-- After an analysis without problems, units have the same name exactly if nothing tells their tests apart. -/
theorem unitName_eq_iff (rooted : Name.isValid root = true) (formed : ∀ item ∈ items, item.wellFormed = true)
    (analyzed : analyze settings (.ofItems root items) = .ok specifications) {test other : Test}
    (member : test ∈ creators settings (.ofItems root items))
    (otherIn : other ∈ creators settings (.ofItems root items)) :
    unitName root test = unitName root other ↔ test.identity = other.identity := by
  obtain ⟨testIn, filled⟩ := mem_creators.mp member
  obtain ⟨otherIn, filled'⟩ := mem_creators.mp otherIn
  rw [unitName, unitName, Name.unit_inj]
  constructor
  · intro same
    obtain ⟨marker, found⟩ := List.exists_mem_of_ne_nil _ filled
    obtain ⟨marker', found'⟩ := List.exists_mem_of_ne_nil _ filled'
    obtain ⟨specification, specified, made⟩ := specification_of_test analyzed testIn found
    obtain ⟨specification', specified', made'⟩ := specification_of_test analyzed otherIn found'
    obtain ⟨_, _, extracted⟩ := Specification.extracted_of_ofTest made
    obtain ⟨_, _, extracted'⟩ := Specification.extracted_of_ofTest made'
    rw [← Catalog.key_eq_iff rooted formed testIn otherIn]
    have names : specification.generatedName = specification'.generatedName := by
      rw [extracted.generatedName, extracted'.generatedName]
      exact same
    have keys := key_of_generatedName specified' specified names (by simp [(analyze_eq_ok analyzed).2.2])
    rw [key_of_test made, key_of_test made'] at keys
    exact keys
  · intro same
    obtain ⟨modules, names⟩ := Prod.mk.inj same
    rw [Name.generated, Name.generated, Name.parts, Name.parts, modules, names]

/-- The units that an expansion appends, and the dispatcher behind them. -/
structure Appended (settings : Settings) (root : String) (items units : List Tree) (dispatcher : Dispatcher) :
    Prop where
  /-- There is one unit for each test with creation sites, named for it. -/
  names : units.map Tree.writtenModule? =
    (creators settings (.ofItems root items)).map fun test => some (unitName root test)
  /-- No unit has the name of the unit of the dispatcher. -/
  apart : dispatcher.unit.writtenModule? = some Name.aggregate ∧
    ∀ unit ∈ units, unit.writtenModule? ≠ some Name.aggregate
  /-- The dispatcher registers the keys of these tests, each with its unit. -/
  keys : dispatcher.registrations.map (fun entry => (entry.key, some entry.unit)) =
    ((creators settings (.ofItems root items)).map (Test.key root)).zip (units.map Tree.writtenModule?)
  /-- No unit is defined again exactly if the tests are told apart by their modules and names, raw or not. -/
  defined : (units.map Tree.writtenModule?).Nodup ↔
    ((creators settings (.ofItems root items)).map Test.identity).Nodup
  /-- No registration overwrites another one under the same condition. -/
  registered : (dispatcher.registrations.map Registration.key).Nodup ↔
    ((creators settings (.ofItems root items)).map Test.identity).Nodup

/--
What a successful expansion appends. The names of the units and the keys that the dispatcher registers are
those of the tests with creation sites; none is the name of the unit of the dispatcher. They are pairwise
distinct exactly if no two such tests stand in modules of one path under one name.
-/
theorem expand_appends (formed : module.wellFormed = true) (inline : module.asModule? = some ⟨root, some items⟩)
    {output : Tree} (expanded : expand settings module = .ok output) :
    ∃ front units dispatcher, output.asModule? = some ⟨root, some (front ++ (units ++ [dispatcher.unit]))⟩ ∧
      front.length = items.length + 1 ∧ Appended settings root items units dispatcher := by
  obtain ⟨specifications, bound, analyzed, bindings, rfl⟩ := (expand_eq_ok_iff inline).mp expanded
  obtain ⟨attributes, visibility, unsafety, word, inner, _, emitted⟩ :=
    emit_content settings inline specifications (specifications.map Specification.key)
  rw [bindings] at emitted
  have rooted := Tree.isValid_module inline formed
  have itemsFormed := Tree.wellFormed_content inline formed
  have names : specifications.map (fun specification => some specification.unitName) =
      (creators settings (.ofItems root items)).map fun test => some (unitName root test) := by
    refine specifications_map analyzed fun test specification made => ?_
    obtain ⟨_, _, extracted⟩ := Specification.extracted_of_ofTest made
    rw [Specification.unitName, extracted.generatedName]
    rfl
  have keys : specifications.map Specification.key =
      (creators settings (.ofItems root items)).map (Test.key root) :=
    specifications_map analyzed fun _ _ made => key_of_test made
  have written : (specifications.map Specification.unit).map Tree.writtenModule? =
      (creators settings (.ofItems root items)).map fun test => some (unitName root test) := by
    rw [← names, List.map_map]
    exact List.map_congr_left fun specification _ => specification.writtenModule?_unit
  have entries : (Dispatcher.ofSpecifications settings.dispatcher specifications).registrations.map
      Registration.key = (creators settings (.ofItems root items)).map (Test.key root) := by
    rw [← keys, Dispatcher.ofSpecifications, List.map_map]
    rfl
  refine ⟨_ :: _, specifications.map Specification.unit, _, by rw [emitted]; rfl, by simp, ?_⟩
  refine ⟨written, ⟨Dispatcher.writtenModule?_unit _, ?_⟩, ?_, ?_, ?_⟩
  · intro unit member same
    have inside := List.mem_map_of_mem (f := Tree.writtenModule?) member
    rw [written, same] at inside
    obtain ⟨test, _, named⟩ := List.mem_map.mp inside
    exact Name.unit_generated_ne_aggregate _ _ _ (Option.some.inj named)
  · rw [written, ← names, ← keys, List.zip_map']
    exact List.map_map
  · rw [written]
    refine List.nodup_map_congr fun test member other otherIn => ?_
    rw [Option.some.injEq]
    exact unitName_eq_iff rooted itemsFormed analyzed member otherIn
  · rw [entries]
    refine List.nodup_map_congr fun test member other otherIn => ?_
    exact Catalog.key_eq_iff rooted itemsFormed (mem_creators.mp member).1 (mem_creators.mp otherIn).1

/-- A module that is declared twice, as under complementary conditions, each time with another test. -/
def partedItems : List Tree :=
  let inner (test : String) :=
    Tree.inlineModule "inner" [Tree.testFunction test [Tree.creation "Ghost" ["super", "I"]]]
  [Tree.plainTrait "I" [], inner "t", inner "u"]

theorem expand_appends_parted :
    ∃ output, expand {} (Tree.inlineModule "samples" partedItems) = .ok output ∧
      ∃ front units, ∃ dispatcher : Dispatcher,
        output.asModule? = some ⟨"samples", some (front ++ (units ++ [dispatcher.unit]))⟩ ∧
        units.map Tree.writtenModule? = [some "__pinky_samples_inner_t", some "__pinky_samples_inner_u"] ∧
        dispatcher.unit.writtenModule? = some Name.aggregate ∧
        (dispatcher.registrations.map Registration.key).Nodup := by
  have formed : (Tree.inlineModule "samples" partedItems).wellFormed = true := by decide
  have inline : (Tree.inlineModule "samples" partedItems).asModule? = some ⟨"samples", some partedItems⟩ := rfl
  have expanded := (@expand_eq_ok_iff {} _ _ _ inline _).mpr ⟨_, _, rfl, rfl, rfl⟩
  obtain ⟨front, units, dispatcher, content, _, appended⟩ := expand_appends formed inline expanded
  exact ⟨_, expanded, front, units, dispatcher, content, appended.names, appended.apart.1,
    appended.registered.mpr (by decide)⟩

/-- A test that is declared twice, as under complementary conditions. -/
def repeatedItems : List Tree :=
  [Tree.plainTrait "I" [], Tree.testFunction "t" [Tree.creation "Ghost" ["I"]],
    Tree.testFunction "t" [Tree.creation "Ghost" ["I"]]]

/-- A repeated test repeats its unit and its key, and the expansion succeeds. -/
theorem unit_repeated :
    (Tree.inlineModule "samples" repeatedItems).wellFormed = true ∧
      ∃ output, expand {} (Tree.inlineModule "samples" repeatedItems) = .ok output ∧
        ∃ front units, ∃ dispatcher : Dispatcher,
          output.asModule? = some ⟨"samples", some (front ++ (units ++ [dispatcher.unit]))⟩ ∧
          units.map Tree.writtenModule? = [some "__pinky_samples_t", some "__pinky_samples_t"] ∧
          dispatcher.registrations.map Registration.key = ["samples::t", "samples::t"] := by
  have inline : (Tree.inlineModule "samples" repeatedItems).asModule? = some ⟨"samples", some repeatedItems⟩ := rfl
  have expanded := (@expand_eq_ok_iff {} _ _ _ inline _).mpr ⟨_, _, rfl, rfl, rfl⟩
  refine ⟨by decide, _, expanded, [_, _, _, _], [Specification.unit _, Specification.unit _],
    Dispatcher.ofSpecifications _ _, rfl, ?_, rfl⟩
  simp only [List.map_cons, List.map_nil, Specification.writtenModule?_unit]
  rfl

end Expansion

end TestDouble
