import TestDouble.Proofs.Expansion.Names
import TestDouble.Proofs.Source.Reading
/-!
# When an expansion breaks off

Of all that an expansion generates and reads again, only what repeats parts of the source can fail to read: the callee of
a bound creation site, which keeps the generic arguments that the site was written with, and the implementation of a
contract, which repeats its signatures with their relative paths moved. Names never make a difference.
-/

namespace TestDouble

theorem Except.ok_of_toOption {ε α : Type} {result : Except ε α} {value : α} (found : result.toOption = some value) :
    result = .ok value := by
  cases result with
  | error problem => cases found
  | ok own =>
      cases found
      rfl

namespace Expansion

variable {settings : Settings} {module : Tree}

theorem outcome_broken (settings : Settings) (module : Tree) :
    outcome settings module = .broken ↔ breaks settings module = true := by
  unfold outcome
  by_cases broken : breaks settings module = true
  · rw [if_pos broken]
    exact iff_of_true rfl broken
  · rw [if_neg broken]
    refine iff_of_false ?_ broken
    split <;> nofun

/-- An expansion breaks off only behind an analysis without problems. -/
theorem breaks_iff : breaks settings module = true ↔
    ∃ catalog specifications, Catalog.ofModule module = .ok catalog ∧ analyze settings catalog = .ok specifications ∧
      ((∃ callee ∈ boundCallees settings (specifications.map Specification.key) module, calleeRereads callee = false) ∨
        ((bindSites settings (specifications.map Specification.key) module).2 = [] ∧
          unitsReread settings specifications = false)) := by
  unfold breaks
  cases collected : Catalog.ofModule module with
  | error problem => simp
  | ok catalog =>
      cases analyzed : analyze settings catalog with
      | error problems => simp [analyzed]
      | ok specifications => simp [analyzed, List.isEmpty_iff]

/-- The units of an analysis read if the implementations do. -/
theorem unitsReread_eq_false {text : String} (declarable : Name.isDeclarable settings.dispatcher = true)
    (read : Tree.readModule text = some module) {catalog : Catalog} (collected : Catalog.ofModule module = .ok catalog)
    {specifications : List Specification} (analyzed : analyze settings catalog = .ok specifications) :
    (∀ specification ∈ specifications, specification.isWritable = true ∧ Name.Joined specification.generatedName) ∧
      (unitsReread settings specifications = false ↔
        ∃ specification ∈ specifications, specification.implementationRereads = false) := by
  obtain ⟨root, items, inline, rfl⟩ := Catalog.ofModule_eq_ok collected
  have formed := Tree.wellFormed_readModule read
  have traits := (Tree.namesTraits_readModule read).content inline
  have each : ∀ specification ∈ specifications, specification.isWritable = true ∧
      Name.Joined specification.generatedName ∧ Name.isDeclarable specification.contract = true := by
    intro specification member
    obtain ⟨test, held, made⟩ := (mem_specifications analyzed).mp member
    exact isWritable_of_test (Tree.isValid_module inline formed) (Tree.wellFormed_content inline formed) traits held made
  have dispatcher : (Dispatcher.ofSpecifications settings.dispatcher specifications).rereads = true :=
    Dispatcher.ofSpecifications_rereads declarable fun specification member => (each specification member).2.1
  refine ⟨fun specification member => ⟨(each specification member).1, (each specification member).2.1⟩, ?_⟩
  rw [unitsReread, dispatcher, Bool.and_true, List.all_eq_false]
  refine exists_congr fun specification => and_congr_right fun member => ?_
  obtain ⟨writable, joined, contract⟩ := each specification member
  rw [Specification.rereads_eq writable joined contract, Bool.not_eq_true]

/--
For settings and a module that were read, all generated names are identifiers and no words of the language, whatever the
names of the module, of the modules in it and of the tests are: those of types and units and that of the dispatcher. All
names in a specification can be written. An expansion breaks off exactly if the analysis finds nothing wrong, and either
a callee made for a creation site does not read, or nothing is wrong with the creation sites and the implementation of
some contract does not read.
-/
theorem outcome_broken_iff {arguments text : String} (asked : Settings.read arguments = .ok settings)
    (read : Tree.readModule text = some module) :
    (∀ catalog, Catalog.ofModule module = .ok catalog → ∀ test ∈ catalog.tests,
      let name := Name.generated catalog.root test.module test.function.name
      (Name.isDeclarable name = true ∧ Name.isRaw name = false) ∧
        Name.isDeclarable (Name.unit name) = true ∧ Name.isRaw (Name.unit name) = false) ∧
    Name.isDeclarable settings.dispatcher = true ∧
    (∀ catalog specifications, Catalog.ofModule module = .ok catalog → analyze settings catalog = .ok specifications →
      ∀ specification ∈ specifications, specification.isWritable = true) ∧
    (outcome settings module = .broken ↔
      ∃ catalog specifications, Catalog.ofModule module = .ok catalog ∧ analyze settings catalog = .ok specifications ∧
        ((∃ callee ∈ boundCallees settings (specifications.map Specification.key) module,
            calleeRereads callee = false) ∨
          ((bindSites settings (specifications.map Specification.key) module).2 = [] ∧
            ∃ specification ∈ specifications, specification.implementationRereads = false))) := by
  have declarable := (Settings.declarable_of_read asked).dispatcher
  have formed := Tree.wellFormed_readModule read
  refine ⟨?_, declarable, ?_, ?_⟩
  · intro catalog collected test member
    obtain ⟨root, items, inline, rfl⟩ := Catalog.ofModule_eq_ok collected
    have joined := joined_of_test (Tree.isValid_module inline formed) (Tree.wellFormed_content inline formed) member
    exact ⟨⟨joined.isDeclarable, joined.isRaw⟩, joined.unit.isDeclarable, joined.unit.isRaw⟩
  · intro catalog specifications collected analyzed specification member
    exact ((unitsReread_eq_false declarable read collected analyzed).1 specification member).1
  · rw [outcome_broken, breaks_iff]
    refine exists_congr fun catalog => exists_congr fun specifications =>
      and_congr_right fun collected => and_congr_right fun analyzed => ?_
    rw [(unitsReread_eq_false declarable read collected analyzed).2]

/--
A signature with a qualified type whose path begins with `self::super`. It is one segment shorter as seen from the unit,
where the `>` of the qualified type still stands behind three.
-/
def qualifiedInside : String :=
  "mod samples \x7b trait Named \x7b type Value; \x7d mod a \x7b " ++
  "trait Source \x7b fn b(&self, x: <u8 as self::super::Named>::Value); \x7d \x7d " ++
  "#[test] fn sends() \x7b Ghost::of::<dyn a::Source>(); \x7d \x7d"

theorem outcome_broken_qualified :
    ∃ settings module catalog specifications, Settings.read "" = .ok settings ∧
      Tree.readModule qualifiedInside = some module ∧ Catalog.ofModule module = .ok catalog ∧
      analyze settings catalog = .ok specifications ∧
      ((boundCallees settings (specifications.map Specification.key) module).all calleeRereads = true ∧
        specifications.map Specification.implementationRereads = [false]) ∧
      outcome settings module = .broken := by
  have asked : Settings.read "" = .ok {} := by decide +kernel
  have computed : ((Tree.readModule qualifiedInside).bind fun module =>
      (Catalog.ofModule module).toOption.bind fun catalog => (analyze {} catalog).toOption.map fun specifications =>
        ((boundCallees {} (specifications.map Specification.key) module).all calleeRereads,
          (bindSites {} (specifications.map Specification.key) module).2.length,
          specifications.map Specification.implementationRereads)) = some (true, 0, [false]) := by
    decide +kernel
  obtain ⟨module, read, computed⟩ := Option.bind_eq_some_iff.mp computed
  obtain ⟨catalog, collected, computed⟩ := Option.bind_eq_some_iff.mp computed
  obtain ⟨specifications, analyzed, computed⟩ := Option.map_eq_some_iff.mp computed
  obtain ⟨callees, bound, unread⟩ : _ ∧ _ ∧ _ := by simpa only [Prod.mk.injEq] using computed
  have collected := Except.ok_of_toOption collected
  have analyzed := Except.ok_of_toOption analyzed
  obtain ⟨specification, member, fails⟩ := List.mem_map.mp (unread ▸ List.mem_singleton_self false)
  obtain ⟨-, -, -, exact⟩ := outcome_broken_iff asked read
  exact ⟨{}, module, catalog, specifications, asked, read, collected, analyzed, ⟨callees, unread⟩,
    exact.mpr ⟨catalog, specifications, collected, analyzed,
      .inr ⟨List.length_eq_zero_iff.mp bound, specification, member, fails⟩⟩⟩

end Expansion

end TestDouble
