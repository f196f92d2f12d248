import TestDouble.Proofs.Catalog.Tests
import TestDouble.Proofs.Specification
/-!
# Which names the imports of a unit bind

A unit repeats signatures written elsewhere, and its imports have to bind the names left in them. They do
so for a name that is the own name of what it stands for, unless it looks like one that is usable anywhere.
A name that another import gave to an item is never bound, since the item is imported under its own name.
-/

namespace TestDouble

namespace Import
open Catalog

/-! ### What an import brings in -/

/-- That an import of a unit denotes a target. -/
inductive Denotes (catalog : Catalog) : ImportPath → Target → Prop where
  | inside {path : List String} {target : Target} (found : catalog.resolve [] path = some target) :
      Denotes catalog ⟨"super" :: path⟩ target
  | outside {path : List String} (absolute : isAbsolute path = true) (module : ModulePath) (name : String) :
      Denotes catalog ⟨path⟩ (.external module name path)

theorem denotes_fromRoot {catalog : Catalog} {module : ModulePath} {name : String} {target : Target} :
    Denotes catalog (fromRoot 0 module name) target ↔ catalog.resolve [] (module ++ [name]) = some target := by
  constructor
  · intro denotes
    generalize written : fromRoot 0 module name = found at denotes
    cases denotes with
    | inside found =>
        cases written
        exact found
    | outside absolute above own =>
        cases written
        simp [isAbsolute, WellKnown.standardCrates] at absolute
  · exact Denotes.inside

/-- Above the annotated module nothing is found. -/
theorem not_denotes_escaped {catalog : Catalog} {escaped : Nat} (beyond : 0 < escaped) {module : ModulePath}
    {name : String} {target : Target} : ¬Denotes catalog (fromRoot escaped module name) target := by
  intro denotes
  obtain ⟨more, rfl⟩ := Nat.exists_eq_succ_of_ne_zero (Nat.ne_of_gt beyond)
  generalize written : fromRoot (more + 1) module name = found at denotes
  cases denotes with
  | inside found =>
      cases written
      cases found
  | outside absolute above own =>
      cases written
      simp [List.replicate_succ, isAbsolute, WellKnown.standardCrates] at absolute

theorem Names.denotes {catalog : Catalog} {module : ModulePath} {name : String} {found : ImportPath}
    (names : Names catalog module name found) {target : Target}
    (resolved : catalog.resolve module [name] = some target) : Denotes catalog found target := by
  obtain ⟨path⟩ := found
  by_cases relative : path.head? = some "super"
  · cases path with
    | nil => cases relative
    | cons first rest =>
        cases relative
        exact .inside ((names.inside rest rfl).trans resolved)
  · obtain ⟨⟨place, own, found⟩, first, member, head⟩ := names.outside relative
    rw [resolved] at found
    cases found
    have absolute : isAbsolute path = true := by
      show (path.head?.map _).getD false = true
      rw [head]
      exact List.contains_iff_mem.mpr member
    exact .outside absolute place own

end Import

/-- The name under which a unit imports a target that is written under some name. -/
def Target.importedName (written : String) : Target → String
  | .trait _ item => item.name
  | .type _ own _ => own
  | .module path => path.getLast?.getD written
  | .external _ own path => if Import.isAbsolute path && path.getLast? = some own then own else written

theorem Target.importedName_declared {target : Target} {place : ModulePath} {own : String}
    (declaration : target.declaration? = some (place, own)) (written : String) :
    target.importedName written = own := by
  cases target with
  | trait above item =>
      cases declaration
      rfl
  | type above name aliased =>
      cases declaration
      rfl
  | module path =>
      obtain ⟨last, ends, same⟩ := Option.map_eq_some_iff.mp declaration
      cases same
      rw [importedName, ends]
      rfl
  | external above name path => cases declaration

namespace Import
open Catalog

theorem fromRoot_getLast (escaped : Nat) (module : ModulePath) (name : String) :
    (fromRoot escaped module name).segments.getLast? = some name := by
  rw [fromRoot, List.getLast?_concat]

/-- The last name of the import of a name is the imported name of what it stands for. -/
theorem ofName_getLast {catalog : Catalog} {module : ModulePath} {name : String} {target : Target}
    (sound : catalog.Sound catalog.Reached target) (resolved : catalog.resolve module [name] = some target)
    {found : ImportPath} (computed : ofName catalog module name = some found) :
    found.segments.getLast? = some (target.importedName name) := by
  rcases sound with ⟨place, own, declaration, _⟩ | ⟨place, own, path, rfl, _⟩
  · rw [ofName_declared resolved declaration] at computed
    cases computed
    rw [fromRoot_getLast, target.importedName_declared declaration]
  · rw [ofName_external resolved] at computed
    rw [Target.importedName]
    by_cases direct : (isAbsolute path && path.getLast? = some own) = true
    · rw [if_pos direct] at computed ⊢
      cases computed
      exact of_decide_eq_true (Bool.and_eq_true_iff.mp direct).2
    · rw [if_neg direct] at computed ⊢
      cases computed
      exact fromRoot_getLast 0 module name

theorem ascend_reached {catalog : Catalog} {module : ModulePath} (reached : catalog.Reached module)
    (escaped : Nat) (segments : List String) : catalog.Reached (ascend module escaped segments).module := by
  induction segments generalizing module escaped with
  | nil => exact reached
  | cons first rest ih =>
      rw [ascend]
      split
      · split
        · exact ih reached _
        · exact ih reached.dropLast _
      · exact reached

theorem ofPath_ascent (catalog : Catalog) (module : ModulePath) (segments : List String) :
    ∃ rest, ofPath catalog module segments = ofAscent catalog (ascend module 0 rest) := by
  obtain ⟨lead, below, rfl, optional⟩ := exists_optional segments
  exact ⟨below, ofPath_optional catalog module optional⟩

/-- The import of a name that ends in another name and denotes a target ends in its imported name. -/
theorem importedName_of_ofName {catalog : Catalog} (named : catalog.Named) {module : ModulePath}
    (reached : catalog.Reached module) {first : String} {found : ImportPath}
    (computed : ofName catalog module first = some found) {name : String} (plain : name ∉ Name.anchors)
    (last : found.segments.getLast? = some name) {target : Target} (denotes : Denotes catalog found target) :
    target.importedName name = name := by
  cases resolved : catalog.resolve module [first] with
  | none =>
      rw [ofName_unresolved resolved] at computed
      cases computed
      rw [fromRoot_getLast] at last
      cases last
      rw [denotes_fromRoot, resolve_written named reached plain, resolved] at denotes
      cases denotes
  | some other =>
      rcases resolve_sound named reached resolved with ⟨place, own, declaration, above, declares⟩ | ⟨place, own, path, rfl, _⟩
      · rw [ofName_declared resolved declaration] at computed
        cases computed
        rw [fromRoot_getLast] at last
        cases last
        rw [denotes_fromRoot, resolve_written named above plain, declares.resolve named] at denotes
        cases denotes
        exact target.importedName_declared declaration name
      · rw [ofName_external resolved] at computed
        by_cases direct : (isAbsolute path && path.getLast? = some own) = true
        · rw [if_pos direct] at computed
          cases computed
          cases denotes with
          | inside found => simp [isAbsolute, WellKnown.standardCrates] at direct
          | outside absolute above other =>
              rw [Target.importedName]
              split
              · rename_i same
                have ends := of_decide_eq_true (Bool.and_eq_true_iff.mp same).2
                rw [last] at ends
                exact (Option.some.inj ends).symm
              · rfl
        · rw [if_neg direct] at computed
          cases computed
          rw [fromRoot_getLast] at last
          cases last
          rw [denotes_fromRoot, resolve_written named reached plain, resolved] at denotes
          cases denotes
          rw [Target.importedName, if_neg direct]

theorem importedName_of_denotes {catalog : Catalog} (named : catalog.Named) {module : ModulePath}
    (reached : catalog.Reached module) {segments : List String} {found : ImportPath}
    (computed : ofPath catalog module segments = some found) {name : String} (plain : name ∉ Name.anchors)
    (last : found.segments.getLast? = some name) {target : Target} (denotes : Denotes catalog found target) :
    target.importedName name = name := by
  obtain ⟨rest, same⟩ := ofPath_ascent catalog module segments
  have start := ascend_reached reached 0 rest
  rw [same] at computed
  generalize ascend module 0 rest = ascent at start computed
  unfold ofAscent at computed
  split at computed
  · cases computed
  · split at computed
    · rename_i beyond
      cases computed
      exact absurd denotes (not_denotes_escaped beyond)
    · exact importedName_of_ofName named start computed plain last denotes

/-! ### The names of signatures -/

theorem everywhere_anchors {name : String} (ordinary : name ∉ WellKnown.everywhere) : name ∉ Name.anchors := by
  have inside : ∀ word ∈ Name.anchors, word ∈ WellKnown.everywhere := by decide
  exact fun anchor => ordinary (inside name anchor)

theorem names_cons {path : Tree} {name : String} (head : path.names.head? = some name) :
    ∃ rest, path.names = name :: rest := by
  cases names : path.names with
  | nil =>
      rw [names] at head
      cases head
  | cons first rest =>
      rw [names] at head
      cases head
      exact ⟨rest, rfl⟩

/-- A path that begins with an ordinary name needs an import unless it is rooted or the name is a usual one. -/
theorem needsImport_iff {path : Tree} {name : String} (head : path.names.head? = some name)
    (ordinary : name ∉ WellKnown.everywhere) :
    needsImport [] path = true ↔ path.isRootPath = false ∧ WellKnown.isPrelude name = false := by
  obtain ⟨rest, names⟩ := names_cons head
  have notRelative : isRelative name = false := by
    rw [isRelative, Bool.or_eq_false_iff, beq_eq_false_iff_ne, beq_eq_false_iff_ne]
    constructor
    · rintro rfl
      exact ordinary (by decide)
    · rintro rfl
      exact ordinary (by decide)
  unfold needsImport
  simp [names, notRelative]

theorem ofPath_ordinary (catalog : Catalog) (module : ModulePath) {name : String}
    (plain : name ∉ Name.anchors) (rest : List String) :
    ofPath catalog module (name :: rest) = ofName catalog module name := by
  have climbing := ofPath_climbing catalog module (.inl rfl) 0 plain rest
  rw [if_neg (Nat.not_lt_zero _), Nat.sub_zero, List.take_length] at climbing
  exact climbing

end Import

namespace Specification
open Import Catalog

/-- That the imports of a specification bind a name to a target. -/
def Binds (catalog : Catalog) (specification : Specification) (name : String) (target : Target) : Prop :=
  ∃ found ∈ specification.imports, found.segments.getLast? = some name ∧ Denotes catalog found target

/-- The contract of a creation site in a reached module stands in a reached module. -/
theorem reached_of_contractOf {catalog : Catalog} (named : catalog.Named) {module : ModulePath}
    (reached : catalog.Reached module) {marker : Call} {place : ModulePath} {contract : TraitItem}
    (contracted : contractOf catalog module marker = .ok (place, contract)) : catalog.Reached place := by
  obtain ⟨path, _, _, resolved⟩ := contractOf_eq_ok contracted
  rcases resolve_sound named reached resolved with ⟨above, own, declaration, inside, _⟩ | ⟨_, _, _, same, _⟩
  · cases declaration
    exact inside
  · cases same

/-- The unit of a contract binds what one of the things written of the contract is imported as. -/
theorem binds_iff {catalog : Catalog} {test : Test} {sites : Sites} {specification : Specification}
    {place : ModulePath} {contract : TraitItem}
    (extracted : Extracted catalog test sites specification place contract) {name : String} {target : Target} :
    Binds catalog specification name target ↔
      ∃ names found, Written contract names ∧ ofPath catalog place names = some found ∧
        found.segments.getLast? = some name ∧ Denotes catalog found target := by
  unfold Binds
  rw [extracted.imports]
  constructor
  · rintro ⟨found, member, last, denotes⟩
    obtain ⟨names, written, computed⟩ := (mem_importsOf extracted.accepted).mp member
    exact ⟨names, found, written, computed, last, denotes⟩
  · rintro ⟨names, found, written, computed, last, denotes⟩
    exact ⟨found, (mem_importsOf extracted.accepted).mpr ⟨names, written, computed⟩, last, denotes⟩

/-- What is written of a contract and begins with a usual name is the name of the contract. -/
theorem written_prelude {contract : TraitItem} {names : List String} (written : Written contract names)
    {name : String} (ordinary : name ∉ WellKnown.everywhere) (usual : WellKnown.isPrelude name = true) :
    names = [contract.name] ∨ names.head? ≠ some name := by
  cases written with
  | own => exact .inl rfl
  | used method inside needed =>
      refine .inr fun head => ?_
      have unusual := ((needsImport_iff head ordinary).mp needed).2
      rw [usual] at unusual
      cases unusual

/--
Which ordinary names left in a signature the imports of the unit bind to what they stand for. A name is
bound if the path is relative, the name is not taken for one that is usable anywhere, and it is the name
under which its target is imported. It is not bound if the target is imported under another name. A name
taken for a usual one is bound at most by accident: by an import that is there for the contract itself, or
for a path that begins differently.
-/
theorem binds_of_signature {module : Tree} {catalog : Catalog} (formed : module.wellFormed = true)
    (collected : Catalog.ofModule module = .ok catalog) (apart : catalog.Apart) {test : Test}
    (member : test ∈ catalog.tests) {sites : Sites} {specification : Specification}
    (made : ofTest catalog test sites = .ok (some specification)) {marker : Call}
    (first : sites.marker? = some marker) {place : ModulePath} {contract : TraitItem}
    (contracted : contractOf catalog test.module marker = .ok (place, contract))
    {method : MethodSpecification} (own : method ∈ specification.methods) {path : Tree}
    (left : path ∈ paths method.signature) {name : String} (head : path.names.head? = some name)
    (ordinary : name ∉ WellKnown.everywhere) {target : Target}
    (resolved : catalog.resolve place [name] = some target) :
    (path.isRootPath = false → WellKnown.isPrelude name = false → target.importedName name = name →
        Binds catalog specification name target) ∧
      (target.importedName name ≠ name → ¬Binds catalog specification name target) ∧
      (Binds catalog specification name target ↔
        ∃ names found, Written contract names ∧
          (WellKnown.isPrelude name = true → names = [contract.name] ∨ names.head? ≠ some name) ∧
          ofPath catalog place names = some found ∧ found.segments.getLast? = some name ∧
          Denotes catalog found target) := by
  have named := named_of_collected formed collected
  obtain ⟨scope, inline⟩ := collected_of_test collected member
  have reached := reached_of_contractOf named (reached_of_collected collected apart inline) contracted
  obtain ⟨place', contract', extracted⟩ := extracted_of_ofTest made
  obtain ⟨marker', first', contracted'⟩ := extracted.first
  obtain rfl := Option.some.inj (first.symm.trans first')
  rw [contracted] at contracted'
  cases contracted'
  have plain := everywhere_anchors ordinary
  have sound := resolve_sound named reached resolved
  refine ⟨?_, ?_, ?_⟩
  · intro relative unusual imported
    obtain ⟨signature, owned, same⟩ := extracted.methods method own
    rw [same] at left
    rcases paths_rebase catalog place left with ⟨word, usable, opens⟩ | ⟨original, inside, names, root⟩
    · rw [head] at opens
      cases opens
      exact absurd usable ordinary
    · rw [names] at head
      rw [root] at relative
      have needed := (needsImport_iff head ordinary).mpr ⟨relative, unusual⟩
      obtain ⟨rest, spelled⟩ := names_cons head
      obtain ⟨found, computed, denoting⟩ := ofName_names named reached plain
      have last := ofName_getLast sound resolved computed
      rw [imported] at last
      refine (binds_iff extracted).mpr ⟨_, found, .used owned inside needed, ?_, last, denoting.denotes resolved⟩
      rw [spelled, ofPath_ordinary catalog place plain, computed]
  · intro other binds
    obtain ⟨names, found, _, computed, last, denotes⟩ := (binds_iff extracted).mp binds
    exact other (importedName_of_denotes named reached computed plain last denotes)
  · rw [binds_iff extracted]
    constructor
    · rintro ⟨names, found, written, rest⟩
      exact ⟨names, found, written, written_prelude written ordinary, rest⟩
    · rintro ⟨names, found, written, _, rest⟩
      exact ⟨names, found, written, rest⟩

/--
A contract whose methods take three types of its module: one imported under another name, one of its own
with the name of a usual type, and one of its own with an ordinary name.
-/
def surfaceItems : List Tree :=
  let taking (method type : String) : Tree := Tree.takingMethod method (Tree.namedType [type])
  let byte (name : String) : Tree := Tree.aliasItem name (Tree.namedType ["u8"])
  [Tree.inlineModule "model" [byte "Payload"],
    Tree.inlineModule "wire"
      [Tree.renamingImport ["super", "model"] "Payload" "Item", byte "Result", byte "Frame",
        Tree.plainTrait "Source" [taking "put" "Item", taking "end" "Result", taking "keep" "Frame"]],
    Tree.testFunction "sends" [Tree.creation "Ghost" ["wire", "Source"]]]

/-- The specification of the test, by its imports and the types its methods take. -/
theorem surface_specification :
    ∃ test ∈ (Catalog.ofItems "samples" surfaceItems).tests, ∃ marker specification contract,
      ofTest (.ofItems "samples" surfaceItems) test (Sites.ofBody {} test.function.body) = .ok (some specification) ∧
      (Sites.ofBody {} test.function.body).marker? = some marker ∧
      contractOf (.ofItems "samples" surfaceItems) test.module marker = .ok (["wire"], contract) ∧
      specification.imports =
        [⟨["super", "model", "Payload"]⟩, ⟨["super", "wire", "Frame"]⟩, ⟨["super", "wire", "Source"]⟩] ∧
      ∀ name ∈ ["Item", "Result", "Frame"], ∃ method ∈ specification.methods,
        Tree.plainPath [name] ∈ paths method.signature := by
  refine ⟨_, .head _, _, _, _, rfl, rfl, rfl, rfl, ?_⟩
  intro name member
  simp only [List.mem_cons, List.not_mem_nil, or_false] at member
  rcases member with rfl | rfl | rfl
  · exact ⟨_, .head _, .head _⟩
  · exact ⟨_, .tail _ (.head _), .head _⟩
  · exact ⟨_, .tail _ (.tail _ (.head _)), .head _⟩

theorem binds_of_signature_own :
    ∃ test specification target,
      ofTest (.ofItems "samples" surfaceItems) test (Sites.ofBody {} test.function.body) =
        .ok (some specification) ∧
      (Catalog.ofItems "samples" surfaceItems).resolve ["wire"] ["Frame"] = some target ∧
      Binds (.ofItems "samples" surfaceItems) specification "Frame" target := by
  have formed : (Tree.inlineModule "samples" surfaceItems).wellFormed = true := by decide
  have apart : (Catalog.ofItems "samples" surfaceItems).Apart := by decide
  obtain ⟨test, member, marker, specification, contract, made, first, contracted, _, taken⟩ :=
    surface_specification
  obtain ⟨method, own, left⟩ := taken "Frame" (by decide)
  have resolved : (Catalog.ofItems "samples" surfaceItems).resolve ["wire"] ["Frame"] =
      some (.type ["wire"] "Frame" (some (Tree.namedType ["u8"]))) := rfl
  have bound := binds_of_signature formed rfl apart member made first contracted own left rfl (by decide) resolved
  exact ⟨test, specification, _, made, resolved, bound.1 rfl (by decide) rfl⟩

/-- An item imported under another name, and one with the name of a usual type, are left unbound. -/
theorem names_left_unbound :
    (Tree.inlineModule "samples" surfaceItems).wellFormed = true ∧
      ∃ test ∈ (Catalog.ofItems "samples" surfaceItems).tests, ∃ marker specification contract,
        ofTest (.ofItems "samples" surfaceItems) test (Sites.ofBody {} test.function.body) =
          .ok (some specification) ∧
        (Sites.ofBody {} test.function.body).marker? = some marker ∧
        contractOf (.ofItems "samples" surfaceItems) test.module marker = .ok (["wire"], contract) ∧
        ∀ name ∈ ["Item", "Result"],
          (∃ method ∈ specification.methods, ∃ path ∈ paths method.signature, path.names.head? = some name) ∧
          ∃ target, (Catalog.ofItems "samples" surfaceItems).resolve ["wire"] [name] = some target ∧
            ¬Binds (.ofItems "samples" surfaceItems) specification name target := by
  refine ⟨by decide, ?_⟩
  obtain ⟨test, member, marker, specification, contract, made, first, contracted, imports, taken⟩ :=
    surface_specification
  refine ⟨test, member, marker, specification, contract, made, first, contracted, ?_⟩
  have unbound : ∀ name ∈ ["Item", "Result"], ∀ target,
      ¬Binds (.ofItems "samples" surfaceItems) specification name target := by
    rintro name among target ⟨found, inside, last, _⟩
    rw [imports] at inside
    have other : ∀ entry ∈ [["super", "model", "Payload"], ["super", "wire", "Frame"], ["super", "wire", "Source"]],
        ∀ word ∈ ["Item", "Result"], entry.getLast? ≠ some word := by decide
    exact other found.segments (List.mem_map_of_mem inside) name among last
  intro name among
  obtain ⟨method, own, left⟩ := taken name (List.mem_append_left ["Frame"] among)
  refine ⟨⟨method, own, _, left, rfl⟩, ?_⟩
  simp only [List.mem_cons, List.not_mem_nil, or_false] at among
  rcases among with rfl | rfl
  · exact ⟨.type ["model"] "Payload" (some (Tree.namedType ["u8"])), rfl, unbound _ (by decide) _⟩
  · exact ⟨.type ["wire"] "Result" (some (Tree.namedType ["u8"])), rfl, unbound _ (by decide) _⟩

end Specification

end TestDouble
