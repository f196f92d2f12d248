import Mathlib.Data.List.Sort
import TestDouble.Proofs.Import.Surface
/-!
# Imports that end in one name

No import of a unit is repeated, but two different ones may end in the same name. They do so if the import
of a path depends on more than its first word: a relative path brings in the first name of another module,
and an item imported under another name is brought in under its own.
-/

namespace TestDouble

namespace ImportPath

theorem precedes_trans {first second third : ImportPath} (before : first.precedes second = true)
    (after : second.precedes third = true) : first.precedes third = true :=
  decide_eq_true (List.lt_trans (of_decide_eq_true before) (of_decide_eq_true after))

theorem precedes_irrefl (path : ImportPath) : path.precedes path = false :=
  decide_eq_false (List.lt_irrefl path.segments)

theorem precedes_of_not {path other : ImportPath} (different : path ≠ other) (notBefore : ¬path.precedes other = true) :
    other.precedes path = true := by
  have segments : path.segments ≠ other.segments := by
    intro same
    obtain ⟨written⟩ := path
    cases same
    exact different rfl
  have below := List.not_lt.mp fun before => notBefore (decide_eq_true before)
  by_contra notAfter
  have above := List.not_lt.mp fun after => notAfter (decide_eq_true after)
  exact segments (List.le_antisymm above below)

theorem not_precedes_trans {first second third : ImportPath} (notAfter : ¬second.precedes first = true)
    (notAfter' : ¬third.precedes second = true) : ¬third.precedes first = true := by
  intro before
  by_cases same : first = second
  · exact notAfter' (same ▸ before)
  · exact notAfter' (precedes_trans before (precedes_of_not (Ne.symm same) notAfter))

theorem ascending_insert {paths : List ImportPath} (ascending : paths.Pairwise (precedes · ·)) (added : ImportPath) :
    (added.insert paths).Pairwise (precedes · ·) := by
  induction paths with
  | nil => exact List.pairwise_singleton _ added
  | cons first rest ih =>
      obtain ⟨least, later⟩ := List.pairwise_cons.mp ascending
      by_cases same : added = first
      · rw [insert, if_pos same]
        exact ascending
      by_cases before : added.precedes first = true
      · rw [insert, if_neg same, if_pos before]
        apply List.Pairwise.cons _ ascending
        intro path member
        rcases List.mem_cons.mp member with rfl | inside
        · exact before
        · exact precedes_trans before (least path inside)
      · rw [insert, if_neg same, if_neg before]
        apply List.Pairwise.cons _ (ih later)
        intro path member
        rcases (mem_insert path added rest).mp member with rfl | inside
        · exact precedes_of_not same before
        · exact least path inside

theorem ascending_sorted (paths : List ImportPath) : (sorted paths).Pairwise (precedes · ·) := by
  have general : ∀ found : List ImportPath, found.Pairwise (precedes · ·) →
      (paths.foldl (fun found path => insert path found) found).Pairwise (precedes · ·) := by
    induction paths with
    | nil => exact fun found ascending => ascending
    | cons first rest ih => exact fun found ascending => ih _ (ascending_insert ascending first)
  exact general [] .nil

/-- The ascending list of some paths is the only one that holds them. -/
theorem sorted_eq {paths ascending : List ImportPath} (ordered : ascending.Pairwise (precedes · ·))
    (same : ∀ path, path ∈ paths ↔ path ∈ ascending) : sorted paths = ascending := by
  have irreflexive : Std.Irrefl fun path other : ImportPath => path.precedes other = true :=
    ⟨fun path => by rw [precedes_irrefl]; exact Bool.false_ne_true⟩
  have antisymmetric : Std.Antisymm fun path other : ImportPath => path.precedes other = true :=
    ⟨fun path other before after => by
      have around := precedes_trans before after
      rw [precedes_irrefl] at around
      cases around⟩
  refine (ascending_sorted paths).eq_of_mem_iff ordered fun path => ?_
  rw [mem_sorted, same]

end ImportPath

namespace Import

/-- That a path is imported under another word than its first: it is relative, or begins with another name. -/
def Diverted (names : List String) (name : String) : Prop :=
  (names.head?.map isRelative).getD false = true ∨ names.head? ≠ some name

theorem head_of_not_diverted {names : List String} {name : String} (direct : ¬Diverted names name) :
    ∃ rest, names = name :: rest ∧ isRelative name = false := by
  obtain ⟨straight, head⟩ := not_or.mp direct
  have first := not_not.mp head
  cases names with
  | nil => cases first
  | cons own rest =>
      cases first
      exact ⟨rest, rfl, Bool.eq_false_iff.mpr straight⟩

/-- The import of a path that is not relative depends on its first name alone. -/
theorem ofPath_straight (catalog : Catalog) (module : ModulePath) {name : String}
    (straight : isRelative name = false) (rest : List String) :
    ofPath catalog module (name :: rest) = ofName catalog module name := by
  obtain ⟨notSelf, notSuper⟩ := Bool.or_eq_false_iff.mp straight
  have other : (name :: rest).head? ≠ some "self" := fun same => beq_eq_false_iff_ne.mp notSelf (Option.some.inj same)
  rw [ofPath_other catalog module other, ascend, if_neg (beq_eq_false_iff_ne.mp notSuper)]
  rfl

/-- Of two paths with different imports that end in one name, one is imported under another word than its first. -/
theorem diverted_of_clash {catalog : Catalog} {module : ModulePath} {one two : List String} {found other : ImportPath}
    (computed : ofPath catalog module one = some found) (another : ofPath catalog module two = some other)
    (different : found ≠ other) (name : String) : Diverted one name ∨ Diverted two name := by
  by_contra direct
  obtain ⟨straight, plain⟩ := not_or.mp direct
  obtain ⟨rest, rfl, own⟩ := head_of_not_diverted straight
  obtain ⟨more, rfl, _⟩ := head_of_not_diverted plain
  rw [ofPath_straight catalog module own] at computed another
  exact different (Option.some.inj (computed.symm.trans another))

end Import

namespace Specification
open Import Catalog

/-- That two different imports of a specification end in one name. -/
def Clashes (specification : Specification) (name : String) : Prop :=
  ∃ found ∈ specification.imports, ∃ other ∈ specification.imports,
    found ≠ other ∧ found.segments.getLast? = some name ∧ other.segments.getLast? = some name

/--
The imports of a unit ascend, so none is repeated. Two of them end in one name exactly if two of the paths
written in the contract have different imports that end in it, and then one of these paths is relative or
begins with another name.
-/
theorem clashes_iff {catalog : Catalog} {test : Test} {sites : Sites} {specification : Specification}
    (made : ofTest catalog test sites = .ok (some specification)) {marker : Call}
    (first : sites.marker? = some marker) {place : ModulePath} {contract : TraitItem}
    (contracted : contractOf catalog test.module marker = .ok (place, contract)) :
    specification.imports.Pairwise (ImportPath.precedes · ·) ∧ specification.imports.Nodup ∧
      ∀ name, Clashes specification name ↔
        ∃ one two found other, Written contract one ∧ Written contract two ∧
          ofPath catalog place one = some found ∧ ofPath catalog place two = some other ∧ found ≠ other ∧
          found.segments.getLast? = some name ∧ other.segments.getLast? = some name ∧
          (Diverted one name ∨ Diverted two name) := by
  obtain ⟨place', contract', extracted⟩ := extracted_of_ofTest made
  obtain ⟨marker', first', contracted'⟩ := extracted.first
  obtain rfl := Option.some.inj (first.symm.trans first')
  rw [contracted] at contracted'
  cases contracted'
  have ascending : specification.imports.Pairwise (ImportPath.precedes · ·) := by
    rw [extracted.imports]
    exact ImportPath.ascending_sorted _
  have distinct : specification.imports.Nodup := by
    apply ascending.imp
    rintro path _ before rfl
    rw [ImportPath.precedes_irrefl] at before
    cases before
  refine ⟨ascending, distinct, fun name => ?_⟩
  unfold Clashes
  rw [extracted.imports]
  constructor
  · rintro ⟨found, member, other, another, different, ends, same⟩
    obtain ⟨one, written, computed⟩ := (mem_importsOf extracted.accepted).mp member
    obtain ⟨two, spelled, reckoned⟩ := (mem_importsOf extracted.accepted).mp another
    exact ⟨one, two, found, other, written, spelled, computed, reckoned, different, ends, same,
      diverted_of_clash computed reckoned different name⟩
  · rintro ⟨one, two, found, other, written, spelled, computed, reckoned, different, ends, same, _⟩
    exact ⟨found, (mem_importsOf extracted.accepted).mpr ⟨one, written, computed⟩, other,
      (mem_importsOf extracted.accepted).mpr ⟨two, spelled, reckoned⟩, different, ends, same⟩

/-- A contract whose method takes types of two modules of one name, both by relative paths. -/
def clashingItems : List Tree :=
  let byte (name : String) : Tree := Tree.aliasItem name (Tree.namedType ["u8"])
  let both := Tree.node .typeTuple [Tree.group .paren
    [Tree.namedType ["self", "model", "A"], Tree.punct ",", Tree.namedType ["super", "model", "B"]]]
  [Tree.inlineModule "model" [byte "B"],
    Tree.inlineModule "wire"
      [Tree.inlineModule "model" [byte "A"], Tree.plainTrait "Source" [Tree.takingMethod "mix" both]],
    Tree.testFunction "sends" [Tree.creation "Ghost" ["wire", "Source"]]]

/-- The specification of the test imports both modules. -/
theorem clashing_specification :
    ∃ test ∈ (Catalog.ofItems "samples" clashingItems).tests, ∃ marker specification contract,
      ofTest (.ofItems "samples" clashingItems) test (Sites.ofBody {} test.function.body) = .ok (some specification) ∧
      (Sites.ofBody {} test.function.body).marker? = some marker ∧
      contractOf (.ofItems "samples" clashingItems) test.module marker = .ok (["wire"], contract) ∧
      Clashes specification "model" := by
  refine ⟨_, .head _, _, _, _, rfl, rfl, rfl, ?_⟩
  exact ⟨⟨["super", "model"]⟩, .head _, ⟨["super", "wire", "model"]⟩, .tail _ (.tail _ (.head _)), by decide, rfl, rfl⟩

/-- One of the paths behind the two imports is relative. -/
theorem clashes_iff_relative :
    ∃ test specification, ofTest (.ofItems "samples" clashingItems) test (Sites.ofBody {} test.function.body) =
        .ok (some specification) ∧
      specification.imports.Nodup ∧
      ∃ one two, ofPath (.ofItems "samples" clashingItems) ["wire"] one ≠
          ofPath (.ofItems "samples" clashingItems) ["wire"] two ∧
        (Diverted one "model" ∨ Diverted two "model") := by
  obtain ⟨test, _, marker, specification, contract, made, first, contracted, clash⟩ := clashing_specification
  obtain ⟨_, distinct, clashes⟩ := clashes_iff made first contracted
  obtain ⟨one, two, found, other, _, _, computed, reckoned, different, _, _, diverted⟩ := (clashes "model").mp clash
  refine ⟨test, specification, made, distinct, one, two, ?_, diverted⟩
  rw [computed, reckoned]
  exact fun same => different (Option.some.inj same)

/-- The unit of a well-formed module imports two modules under one name. -/
theorem imports_clash :
    (Tree.inlineModule "samples" clashingItems).wellFormed = true ∧
      ∃ test ∈ (Catalog.ofItems "samples" clashingItems).tests, ∃ specification,
        ofTest (.ofItems "samples" clashingItems) test (Sites.ofBody {} test.function.body) =
          .ok (some specification) ∧
        Clashes specification "model" := by
  obtain ⟨test, member, _, specification, _, made, _, _, clash⟩ := clashing_specification
  exact ⟨by decide, test, member, specification, made, clash⟩

end Specification

end TestDouble
