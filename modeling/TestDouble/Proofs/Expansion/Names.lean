import TestDouble.Outcome
import TestDouble.Proofs.Expansion.Registration
import TestDouble.Proofs.Generated.Rereading
import TestDouble.Proofs.Import.Writable
import TestDouble.Proofs.Settings
import TestDouble.Proofs.Source.Scanning
/-!
# Generated names

What is generated for a test is named after the parts of the test, joined by underscores. Such a name is an identifier
and never a word of the language, since in no word does an underscore follow another character. So a specification holds
only names that can be written, and what its unit is made of reads, up to the implementation of the contract.
-/

namespace TestDouble

namespace Name
open TestDouble.Text

theorem isSpelling_unraw {name : String} (valid : isValid name = true) :
    Identifier.isSpelling (unraw name).toList = true :=
  (Bool.and_eq_true_iff.mp valid).1

/-- That a name spells an identifier in which an underscore follows another character. -/
def Joined (name : String) : Prop := Identifier.isSpelling name.toList = true ∧ '_' ∈ name.toList.tail

theorem Joined.isRaw {name : String} (joined : Joined name) : isRaw name = false := by
  simpa using Lexer.isRaw_of_isSpelling joined.1

theorem Joined.not_keyword {name : String} (joined : Joined name) : name ∉ Parse.keywords := by
  have words : ∀ word ∈ Parse.keywords, '_' ∉ word.toList.tail := by decide
  exact fun member => words name member joined.2

theorem Joined.isDeclarable {name : String} (joined : Joined name) : isDeclarable name = true := by
  have valid : isValid name = true := by simpa using Lexer.isValid_of_isSpelling joined.1
  simp [Name.isDeclarable, valid, joined.not_keyword]

theorem joined_cons {first second : String} (spelled : Identifier.isSpelling first.toList = true)
    (follows : Identifier.isSpelling second.toList = true) : Joined (first ++ "_" ++ second) := by
  have characters : (first ++ "_" ++ second).toList = first.toList ++ '_' :: second.toList := by
    simp [String.toList_append]
  rw [Joined, characters]
  refine ⟨Identifier.isSpelling_join spelled follows, ?_⟩
  cases head : first.toList with
  | nil =>
      rw [head] at spelled
      cases spelled
  | cons c rest => simp

theorem isSpelling_intercalate {first : String} {rest : List String}
    (spelled : ∀ name ∈ first :: rest, Identifier.isSpelling name.toList = true) :
    Identifier.isSpelling ("_".intercalate (first :: rest)).toList = true := by
  induction rest generalizing first with
  | nil =>
      rw [String.intercalate_singleton]
      exact spelled first List.mem_cons_self
  | cons second more ih =>
      rw [String.intercalate_cons_cons]
      exact (joined_cons (spelled first List.mem_cons_self)
        (ih fun name member => spelled name (List.mem_cons_of_mem _ member))).1

/-- A generated name joins at least two identifiers. -/
theorem joined_generated {root : String} {module : ModulePath} {function : String} (rooted : isValid root = true)
    (below : ∀ name ∈ module, isValid name = true) (named : isValid function = true) :
    Joined (generated root module function) := by
  have each : ∀ part ∈ module.map unraw ++ [unraw function], Identifier.isSpelling part.toList = true := by
    intro part member
    rcases List.mem_append.mp member with inside | last
    · obtain ⟨name, held, rfl⟩ := List.mem_map.mp inside
      exact isSpelling_unraw (below name held)
    · rw [List.mem_singleton.mp last]
      exact isSpelling_unraw named
  obtain ⟨second, more, tail⟩ : ∃ second more, module.map unraw ++ [unraw function] = second :: more :=
    List.exists_cons_of_ne_nil (by simp)
  have parts : generated root module function = unraw root ++ "_" ++ "_".intercalate (second :: more) := by
    rw [← String.intercalate_cons_cons, ← tail]
    rfl
  rw [parts]
  exact joined_cons (isSpelling_unraw rooted) (isSpelling_intercalate (tail ▸ each))

theorem Joined.unit {generated : String} (joined : Joined generated) : Joined (Name.unit generated) := by
  have lead : Identifier.isSpelling "__pinky".toList = true := by decide
  exact joined_cons lead joined.1

end Name

namespace Expansion

variable {settings : Settings} {root : String} {items : List Tree}

/-- All names of tests are identifiers: generated types and units can be named after them. -/
theorem joined_of_test (rooted : Name.isValid root = true) (formed : ∀ item ∈ items, item.wellFormed = true)
    {test : Test} (member : test ∈ (Catalog.ofItems root items).tests) :
    Name.Joined (Name.generated root test.module test.function.name) := by
  obtain ⟨below, named⟩ := Catalog.valid_of_test formed member
  exact Name.joined_generated rooted below named

/-- The specification of a test holds only names that can be written. -/
theorem isWritable_of_test (rooted : Name.isValid root = true) (formed : ∀ item ∈ items, item.wellFormed = true)
    (traits : ∀ item ∈ items, item.NamesTraits) {test : Test} (member : test ∈ (Catalog.ofItems root items).tests)
    {specification : Specification}
    (made : Specification.ofTest (.ofItems root items) test (sites settings test) = .ok (some specification)) :
    specification.isWritable = true ∧ Name.Joined specification.generatedName ∧
      Name.isDeclarable specification.contract = true := by
  have writable : (Catalog.ofItems root items).Writable := Catalog.writable_ofItems formed traits
  obtain ⟨place, contract, extracted⟩ := Specification.extracted_of_ofTest made
  obtain ⟨marker, _, contracted⟩ := extracted.first
  obtain ⟨path, _, _, resolved⟩ := Specification.contractOf_eq_ok contracted
  obtain ⟨placed, declarable, members⟩ := writable.target (Catalog.valid_of_test formed member).1 resolved
  have joined : Name.Joined specification.generatedName := by
    rw [extracted.generatedName]
    exact joined_of_test rooted formed member
  have named : Name.isDeclarable specification.contract = true := by
    rw [extracted.named]
    exact declarable
  have valid := (Bool.and_eq_true_iff.mp declarable).1
  have imports : ∀ found ∈ specification.imports, Name.AllValid found.segments := by
    intro found inside
    rw [extracted.imports] at inside
    obtain ⟨names, written, computed⟩ := (Specification.mem_importsOf extracted.accepted).mp inside
    exact Import.ofPath_valid writable placed (written.valid valid members) computed
  refine ⟨?_, joined, named⟩
  have path : Name.isPathName specification.contract = true := by
    rw [Name.isDeclarable, Bool.and_eq_true] at named
    rw [Name.isPathName, named.1, named.2, Bool.true_or, Bool.and_true]
  rw [Specification.isWritable, joined.isDeclarable, joined.isRaw, path]
  simp only [Bool.not_false, Bool.and_self, Bool.true_and, List.all_eq_true]
  exact fun found inside name held => imports found inside name held

end Expansion

namespace Specification

variable {specification : Specification}

/-- Behind names that can be written, a unit reads if the implementation of the contract does. -/
theorem rereads_eq (writable : specification.isWritable = true) (joined : Name.Joined specification.generatedName)
    (contract : Name.isDeclarable specification.contract = true) :
    specification.rereads = specification.implementationRereads := by
  have word := joined.not_keyword
  rw [rereads, writable, typeItem_rereads word,
    constructor_rereads word (Name.not_keyword_of_isDeclarable contract)]
  rfl

end Specification

/-- The dispatcher reads, if its name and those of the types that it registers can be declared. -/
theorem Dispatcher.ofSpecifications_rereads {name : String} {specifications : List Specification}
    (named : Name.isDeclarable name = true)
    (joined : ∀ specification ∈ specifications, Name.Joined specification.generatedName) :
    (ofSpecifications name specifications).rereads = true := by
  have word := Name.not_keyword_of_isDeclarable named
  have writable : (ofSpecifications name specifications).isWritable = true := by
    have valid := (Bool.and_eq_true_iff.mp named).1
    have other : name ≠ "Self" := by
      rintro rfl
      exact word (by decide)
    simp [isWritable, ofSpecifications, Name.isPathName, valid, word, other]
  have registered : ∀ registration ∈ (ofSpecifications name specifications).registrations, Named registration := by
    intro registration member
    obtain ⟨specification, held, rfl⟩ := List.mem_map.mp member
    have own := joined specification held
    exact ⟨own.unit.not_keyword, own.not_keyword⟩
  rw [rereads, writable, importItem_rereads word, implementation_rereads word registered]
  rfl

end TestDouble
