import TestDouble.Proofs.Import.Clashes
import TestDouble.Proofs.Renaming.Import
import TestDouble.Proofs.Renaming.ResultType
import TestDouble.Proofs.Renaming.Site
import TestDouble.Proofs.Renaming.Steady
/-!
# Renaming and specifications

A test of a steady module has a specification in the renamed module exactly if it has one in the module, and
then one that repeats the renamed contract. What is wrong with a test stays wrong, and is reported in the same
words if what messages quote stays.
-/

namespace TestDouble

variable {still : Prop} {σ : Equiv.Perm String}

/-! ### Problems -/

/-- That two lists of problems are empty alike, and the same if what messages quote stays. -/
structure Problem.Alike (still : Prop) (problems other : List Problem) : Prop where
  empty : other = [] ↔ problems = []
  same : still → other = problems

namespace Problem.Alike

theorem refl (problems : List Problem) : Alike still problems problems := ⟨Iff.rfl, fun _ => rfl⟩

theorem cases_nil {problems other : List Problem} (alike : Alike still problems other) :
    (problems = [] ∧ other = []) ∨
      ∃ first more first' more', problems = first :: more ∧ other = first' :: more' ∧
        (still → first :: more = first' :: more') := by
  cases problems with
  | nil => exact .inl ⟨rfl, alike.empty.mpr rfl⟩
  | cons first more =>
      cases other with
      | nil => exact absurd (alike.empty.mp rfl) (List.cons_ne_nil _ _)
      | cons first' more' => exact .inr ⟨first, more, first', more', rfl, rfl, fun stays => (alike.same stays).symm⟩

theorem filterMap {α : Type} {elements : List α} {problem? problem?' : α → Option Problem}
    (empty : ∀ element ∈ elements, problem?' element = none ↔ problem? element = none)
    (same : still → ∀ element ∈ elements, problem?' element = problem? element) :
    Alike still (elements.filterMap problem?) (elements.filterMap problem?') where
  empty := by
    rw [List.filterMap_eq_nil_iff, List.filterMap_eq_nil_iff]
    exact forall₂_congr empty
  same stays := List.filterMap_congr (same stays)

end Problem.Alike

namespace Contract

theorem problem?_rename {contract : TraitItem} (named : σ contract.name = contract.name) :
    problem? (contract.rename σ) = problem? contract := by
  simp only [problem?, TraitItem.rename, List.isEmpty_map, named]

theorem methodFault?_rename (view : Signature) : methodFault? (view.rename σ) = methodFault? view := by
  have receiver : hasReceiver (view.rename σ) = hasReceiver view := by
    simp only [hasReceiver, Signature.rename, Tree.elements_rename, List.any_map, Function.comp_def, Tree.kind?_rename]
  have parameters : hasTypeParameters (view.rename σ) = hasTypeParameters view := by
    simp only [hasTypeParameters, Signature.rename, Tree.parameters_rename, List.any_map, Function.comp_def,
      Tree.kind?_rename]
  rw [methodFault?, methodFault?, receiver, parameters]
  simp only [Signature.rename, Tree.isAbsent_rename]

/-- A member is at fault after renaming exactly if it was. -/
theorem memberProblem?_isSome (member : Tree) :
    (memberProblem? (member.rename σ)).isSome = (memberProblem? member).isSome := by
  refine @Tree.bool_rename σ (fun member => (memberProblem? member).isSome) (fun σ member holds => ?_) member
  change (memberProblem? member).isSome = true at holds
  unfold memberProblem? at holds
  split at holds
  · simp [memberProblem?, Token.rename]
  · simp [memberProblem?, Token.rename]
  · simp [memberProblem?]
  · rename_i signature _
    simp only [Tree.rename_node, List.map_cons, List.map_nil, memberProblem?, Tree.asSignature?_rename]
    cases viewed : signature.asSignature? with
    | none =>
        rw [viewed] at holds
        exact holds
    | some view =>
        rw [viewed, Option.bind_some, Option.isSome_map] at holds
        simpa [methodFault?_rename] using holds
  · cases holds

theorem memberProblem?_rename {member : Tree} (steady : member.Steady still σ) (stays : still) :
    memberProblem? (member.rename σ) = memberProblem? member := by
  cases found : memberProblem? member with
  | none =>
      have same := @memberProblem?_isSome σ member
      rw [found] at same
      exact Option.not_isSome_iff_eq_none.mp (Bool.eq_false_iff.mp same)
  | some problem =>
      unfold memberProblem? at found
      split at found
      · cases found
        simp [memberProblem?, Token.rename, steady.own_name rfl]
      · cases found
        simp [memberProblem?, Token.rename, steady.own_name rfl]
      · rename_i path _ _
        cases found
        have quoted := steady.own_quotes stays path List.mem_cons_self
        simp [memberProblem?, quoted]
      · rename_i signature _
        cases viewed : signature.asSignature? with
        | none =>
            rw [viewed] at found
            cases found
        | some view =>
            have named : (view.rename σ).name = view.name := (steady.child (by simp)).asSignature? viewed
            rw [viewed, Option.bind_some] at found
            simp only [Tree.rename_node, List.map_cons, List.map_nil, memberProblem?, Tree.asSignature?_rename, viewed,
              Option.map_some, Option.bind_some, methodFault?_rename, named]
            exact found
      · cases found

theorem memberProblems_alike {contract : TraitItem} (steady : contract.Steady still σ) :
    Problem.Alike still (memberProblems contract) (memberProblems (contract.rename σ)) := by
  have renamed : memberProblems (contract.rename σ) =
      contract.members.filterMap fun member => memberProblem? (member.rename σ) := by
    rw [memberProblems, TraitItem.rename, List.filterMap_map]
    rfl
  rw [renamed]
  refine .filterMap (fun member _ => ?_) fun stays member inside => memberProblem?_rename (steady.members member inside) stays
  rw [← Option.not_isSome_iff_eq_none, ← Option.not_isSome_iff_eq_none, memberProblem?_isSome]

theorem methods_rename (contract : TraitItem) :
    methods (contract.rename σ) = (methods contract).map (Tree.rename σ) := by
  rw [methods, methods, TraitItem.rename, List.filterMap_map, List.map_filterMap]
  exact List.filterMap_congr fun member _ => Tree.methodSignature?_rename σ member

end Contract

/-! ### The contract of a creation site -/

/-- That what the catalog says of names which are shown or quoted stays. -/
structure Catalog.Steady (still : Prop) (σ : Equiv.Perm String) (catalog : Catalog) : Prop where
  root : σ catalog.root = catalog.root
  aliases : ResultType.QuietAliases still σ catalog
  contracts : ∀ module names place contract,
    catalog.resolve module names = some (.trait place contract) → contract.Steady still σ

namespace Specification

theorem separated_rename (mark : String) (parts : List Tree) :
    (parts.map (Tree.rename σ)).filter (fun part => !part.isPunct mark) =
      (parts.filter fun part => !part.isPunct mark).map (Tree.rename σ) :=
  Tree.filter_rename σ (fun part => congrArg not (Tree.isPunct_rename σ mark part)) parts

theorem typeArguments?_rename (callee : Tree) :
    typeArguments? (callee.rename σ) = (typeArguments? callee).map (List.map (Tree.rename σ)) := by
  refine Tree.view_rename σ (fun name => List.map (Tree.rename name)) (fun σ callee found holds => ?_) callee
  unfold typeArguments? at holds
  split at holds
  · split at holds
    · rename_i last
      cases holds
      have kept := @separated_rename σ ","
      simp [typeArguments?, Tree.segments_rename, last, ← List.map_dropLast, kept]
    · cases holds
  · cases holds

theorem bare_rename (type : Tree) : bare (type.rename σ) = (bare type).rename σ := by
  refine @commutes_of_smaller _ _ Tree.size Tree.rename Tree.rename bare id (fun σ type => type.size_rename σ)
    Tree.rename_symm Tree.rename_symm (fun _ _ => rfl) [] (fun type smaller σ fixed => ?_) σ (by simp) type
  unfold bare
  split
  · right
    rename_i inner
    have deeper := smaller inner
      (Nat.lt_trans (Tree.size_child List.mem_cons_self) (Tree.size_child List.mem_cons_self)) σ fixed
    simpa using deeper
  · exact .inl rfl

theorem plainBound?_rename (bound : Tree) : plainBound? (bound.rename σ) = (plainBound? bound).map (Tree.rename σ) := by
  refine Tree.view_rename σ Tree.rename (fun σ bound found holds => ?_) bound
  unfold plainBound? at holds
  split at holds
  · cases holds
    simp [plainBound?]
  · cases holds
    simp [plainBound?]
  · cases holds

/-- The path of the trait that a type names, without parentheses around it. -/
def namedPath : Tree → Except MarkerFault Tree
  | .node .typePath [.node .path children] => .ok (.node .path children)
  | .node .typeObject (_ :: bounds) =>
    match bounds.filter fun t => !t.isPunct "+" with
    | [one] =>
      match plainBound? one with
      | some path => .ok path
      | none => .error .noTraitObject
    | _ => .error .moreBounds
  | _ => .error .noTraitObject

theorem contractPath_eq (marker : Call) :
    contractPath marker =
      match typeArguments? marker.callee with
      | none => .error .noArgument
      | some [argument] => namedPath (bare argument)
      | some _ => .error .manyArguments := by
  unfold contractPath
  cases typeArguments? marker.callee with
  | none => rfl
  | some arguments =>
      cases arguments with
      | nil => rfl
      | cons first rest => cases rest <;> rfl

theorem namedPath_rename (type : Tree) : namedPath (type.rename σ) = (namedPath type).map (Tree.rename σ) := by
  refine @commutes_of_forward _ _ Tree.rename (fun name => Except.map (Tree.rename name)) namedPath
    (fun _ => .error .noTraitObject) Tree.rename_symm (fun σ result => ?_) (fun _ _ => rfl) [] (fun σ _ type => ?_) σ (by simp) type
  · cases result with
    | error fault => rfl
    | ok path => exact congrArg Except.ok (Tree.rename_symm σ path)
  · unfold namedPath
    split
    · right
      simp [Except.map]
    · right
      rename_i word bounds
      simp only [Tree.rename_node, List.map_cons, separated_rename]
      cases bounds.filter fun part => !part.isPunct "+" with
      | nil => rfl
      | cons one others =>
          cases others with
          | cons second more => rfl
          | nil =>
              simp only [List.map_cons, List.map_nil, plainBound?_rename]
              cases plainBound? one <;> rfl
    · exact .inl rfl

theorem contractPath_rename (marker : Call) :
    contractPath (marker.rename σ) = (contractPath marker).map (Tree.rename σ) := by
  rw [contractPath_eq, contractPath_eq, Call.rename, typeArguments?_rename]
  cases typeArguments? marker.callee with
  | none => rfl
  | some arguments =>
      cases arguments with
      | nil => rfl
      | cons first rest =>
          cases rest with
          | cons second more => rfl
          | nil =>
              simp only [Option.map_some, List.map_cons, List.map_nil, bare_rename, namedPath_rename]

/-- That the renaming leaves what a creation site names alone, if messages are to stay. -/
def QuietMarker (still : Prop) (σ : Equiv.Perm String) (marker : Call) : Prop :=
  still → ∀ argument ∈ (typeArguments? marker.callee).getD [], argument.rename σ = argument

theorem contractPath_quiet {marker : Call} (quiet : QuietMarker still σ marker) (stays : still) {path : Tree}
    (named : contractPath marker = .ok path) : path.rename σ = path := by
  have same : typeArguments? (marker.rename σ).callee = typeArguments? marker.callee := by
    rw [Call.rename, typeArguments?_rename]
    have each := quiet stays
    cases found : typeArguments? marker.callee with
    | none => rfl
    | some arguments =>
        rw [found] at each
        exact congrArg some ((List.map_congr_left each).trans (List.map_id' arguments))
  have renamed := @contractPath_rename σ marker
  rw [contractPath_eq, same, ← contractPath_eq, named] at renamed
  exact (Except.ok.inj renamed).symm

theorem contractOf_agree (keeps : Keeps σ) (catalog : Catalog) (module : ModulePath) {marker : Call}
    (quiet : QuietMarker still σ marker) :
    Agree still (fun found found' => found' = (found.1.map σ, found.2.rename σ)) (contractOf catalog module marker)
      (contractOf (catalog.rename σ) (module.map σ) (marker.rename σ)) := by
  rw [contractOf, contractOf, contractPath_rename]
  cases named : contractPath marker with
  | error fault => exact .error fun _ => rfl
  | ok path =>
      have quoted : still → "::".intercalate path.names = "::".intercalate (path.rename σ).names :=
        fun stays => by rw [contractPath_quiet quiet stays named]
      have arguments : (path.rename σ).segments.any Tree.hasArguments = path.segments.any Tree.hasArguments := by
        rw [Tree.segments_rename, List.any_map]
        exact List.any_congr rfl fun segment => Tree.hasArguments_rename σ segment
      simp only [Except.map, arguments]
      split
      · exact .error fun stays => by rw [quoted stays]
      · rw [Tree.names_rename σ keeps.blank] at quoted ⊢
        rw [Catalog.resolve_rename keeps]
        cases catalog.resolve module path.names with
        | none => exact .error fun stays => by rw [quoted stays]
        | some target =>
            cases target with
            | trait place item => exact .ok rfl
            | type place name aliased => exact .error fun stays => by rw [quoted stays]
            | module place => exact .error fun stays => by rw [quoted stays]
            | external place name written => exact .error fun stays => by rw [quoted stays]

theorem otherMarkerProblem?_renamed (keeps : Keeps σ) {catalog : Catalog} (steady : catalog.Steady still σ) (test : Test)
    (key : String) (place : ModulePath) (contract : TraitItem) (named : σ contract.name = contract.name) {others : List Call}
    (quiet : ∀ marker ∈ others, QuietMarker still σ marker) :
    Problem.Alike still (others.filterMap (otherMarkerProblem? catalog test key (place, contract)))
      ((others.map (Call.rename σ)).filterMap
        (otherMarkerProblem? (catalog.rename σ) (test.rename σ) key (place.map σ, contract.rename σ))) := by
  have each : ∀ marker ∈ others,
      let before := otherMarkerProblem? catalog test key (place, contract) marker
      let after := otherMarkerProblem? (catalog.rename σ) (test.rename σ) key (place.map σ, contract.rename σ)
        (marker.rename σ)
      (after = none ↔ before = none) ∧ (still → after = before) := by
    intro marker member
    have agree := contractOf_agree keeps catalog test.module (quiet marker member)
    simp only [otherMarkerProblem?, Test.rename]
    cases found : contractOf catalog test.module marker with
    | error problem =>
        rw [found] at agree
        cases renamed : contractOf (catalog.rename σ) (test.module.map σ) (marker.rename σ) with
        | ok other =>
            rw [renamed] at agree
            cases agree
        | error other =>
            rw [renamed] at agree
            cases agree with
            | error same => exact ⟨by simp, fun stays => by rw [same stays]⟩
    | ok own =>
        obtain ⟨module, item⟩ := own
        rw [found] at agree
        cases renamed : contractOf (catalog.rename σ) (test.module.map σ) (marker.rename σ) with
        | error other =>
            rw [renamed] at agree
            cases agree
        | ok other =>
            rw [renamed] at agree
            cases agree with
            | ok same =>
                cases same
                obtain ⟨path, _, _, resolved⟩ := contractOf_eq_ok found
                have own := (steady.contracts _ _ _ _ resolved).name
                have modules : module.map σ = place.map σ ↔ module = place :=
                  (List.map_injective_iff.mpr σ.injective).eq_iff
                simp only [TraitItem.rename, named, own, modules]
                exact ⟨trivial, fun _ => trivial⟩
  rw [List.filterMap_map]
  exact .filterMap (fun marker member => (each marker member).1) fun stays marker member => (each marker member).2 stays

/-! ### Methods -/

theorem configuredConstant_agree (keeps : Keeps σ) (scope : ConstScope) {signature : Tree}
    (steady : signature.Steady still σ)
    (quiet : still → ∀ type, signature.resultType? = some type → type.rename σ = type) {type type' : Descriptor}
    (alike : type.Alike type') (configured : Option (Option Tree)) :
    Agree still (fun found found' => found' = found) (configuredConstant scope signature type configured)
      (configuredConstant (scope.rename σ) (signature.rename σ) type' (configured.map (Option.map (Tree.rename σ)))) := by
  have name : (signature.rename σ).signatureName = signature.signatureName := by
    rw [Tree.signatureName_rename σ keeps.blank, steady.signatureName keeps.blank]
  have shown : still → shownResult signature = shownResult (signature.rename σ) := by
    intro stays
    rw [shownResult, shownResult, Tree.resultType?_rename]
    cases found : signature.resultType? with
    | none => rfl
    | some type => exact congrArg Tree.spaced (quiet stays type found).symm
  match configured with
  | none => exact .ok rfl
  | some none => exact .ok rfl
  | some (some argument) =>
      simp only [configuredConstant, Option.map_some, ConstScope.evaluate_rename keeps, name]
      cases scope.evaluate argument with
      | none => exact .ok rfl
      | some value =>
          simp only [alike.constant?]
          split
          · exact .ok rfl
          · exact .error fun stays => by rw [shown stays]

end Specification

/-- That a method of a specification is what renaming makes of another one. -/
structure MethodSpecification.Renamed (σ : Equiv.Perm String) (method other : MethodSpecification) : Prop where
  name : other.name = method.name
  signature : other.signature = method.signature.rename σ
  type : method.type.Alike other.type
  configured : other.configured = method.configured

/-- That a specification is what renaming makes of another one. -/
structure Specification.Renamed (σ : Equiv.Perm String) (specification other : Specification) : Prop where
  generatedName : other.generatedName = specification.generatedName
  key : other.key = specification.key
  contract : other.contract = specification.contract
  isUnsafe : other.isUnsafe = specification.isUnsafe
  imports : other.imports = ImportPath.sorted (specification.imports.map (ImportPath.rename σ))
  methods : List.Forall₂ (MethodSpecification.Renamed σ) specification.methods other.methods

namespace Specification

theorem method_agree (keeps : Keeps σ) {catalog : Catalog} (aliases : ResultType.QuietAliases still σ catalog)
    (place : ModulePath) (scope : ConstScope) (sites : Sites) {signature : Tree} (steady : signature.Steady still σ)
    (quiet : still → ∀ type, signature.resultType? = some type → type.rename σ = type) :
    Agree still (MethodSpecification.Renamed σ) (method catalog place scope sites signature)
      (method (catalog.rename σ) (place.map σ) (scope.rename σ) (sites.rename σ) (signature.rename σ)) := by
  have name : (signature.rename σ).signatureName = signature.signatureName := by
    rw [Tree.signatureName_rename σ keeps.blank, steady.signatureName keeps.blank]
  have configured : (sites.rename σ).configured? signature.signatureName =
      (sites.configured? signature.signatureName).map (Option.map (Tree.rename σ)) := by
    have found := @Sites.configured?_rename σ sites signature.signatureName
    rwa [steady.signatureName keeps.blank] at found
  have typed := ResultType.ofSignature_agree keeps aliases place signature quiet
  simp only [method, name, configured]
  generalize ResultType.ofSignature catalog place signature = result,
    ResultType.ofSignature (catalog.rename σ) (place.map σ) (signature.rename σ) = result' at typed
  cases typed with
  | error same => exact .error fun stays => by rw [same stays]
  | ok alike =>
      rename_i type type'
      have constant := configuredConstant_agree keeps scope steady quiet alike
        (sites.configured? signature.signatureName)
      simp only
      generalize configuredConstant scope signature type (sites.configured? signature.signatureName) = result,
        configuredConstant (scope.rename σ) (signature.rename σ) type'
          ((sites.configured? signature.signatureName).map (Option.map (Tree.rename σ))) = result' at constant
      cases constant with
      | error same => exact .error same
      | ok same => exact .ok ⟨rfl, Import.rebase_rename keeps catalog place signature, alike, same⟩

theorem results_alike {signatures : List Tree} {build build' : Tree → Except Problem MethodSpecification}
    (each : ∀ signature ∈ signatures,
      Agree still (MethodSpecification.Renamed σ) (build signature) (build' (signature.rename σ))) :
    Problem.Alike still (problemsOf (signatures.map build)) (problemsOf ((signatures.map (Tree.rename σ)).map build')) ∧
      List.Forall₂ (MethodSpecification.Renamed σ) (methodsOf (signatures.map build))
        (methodsOf ((signatures.map (Tree.rename σ)).map build')) := by
  induction signatures with
  | nil => exact ⟨.refl _, .nil⟩
  | cons first rest ih =>
      have own := each first List.mem_cons_self
      obtain ⟨problems, methods⟩ := ih fun signature member => each signature (List.mem_cons_of_mem _ member)
      simp only [List.map_cons]
      generalize build first = result, build' (first.rename σ) = result' at own
      cases own with
      | ok same => exact ⟨problems, .cons same methods⟩
      | @error problem problem' same =>
          refine ⟨⟨?_, fun stays => ?_⟩, methods⟩
          · exact ⟨fun none => absurd none (List.cons_ne_nil _ _), fun none => absurd none (List.cons_ne_nil _ _)⟩
          · exact congrArg₂ (· :: ·) (same stays).symm (problems.same stays)

theorem importsOf_rename (keeps : Keeps σ) (catalog : Catalog) (place : ModulePath) (contract : TraitItem) :
    importsOf (catalog.rename σ) (place.map σ) (contract.rename σ) =
      ImportPath.sorted ((importsOf catalog place contract).map (ImportPath.rename σ)) := by
  have own := Import.ofPath_rename keeps catalog place [contract.name]
  have used : (Contract.methods (contract.rename σ)).flatMap (Import.needed (catalog.rename σ) (place.map σ)) =
      ((Contract.methods contract).flatMap (Import.needed catalog place)).map (ImportPath.rename σ) := by
    rw [Contract.methods_rename, List.flatMap_map, List.map_flatMap]
    exact List.flatMap_congr fun signature _ => Import.needed_rename keeps catalog place signature
  rw [List.map_singleton] at own
  have members : ∀ path, path ∈ (importsOf catalog place contract).map (ImportPath.rename σ) ↔
      path ∈ importsOf (catalog.rename σ) (place.map σ) (contract.rename σ) := by
    intro path
    rw [importsOf, importsOf, used, TraitItem.rename, own, Option.toList_map, ← List.map_append, ImportPath.mem_sorted]
    simp only [List.mem_map, ImportPath.mem_sorted]
  exact (ImportPath.sorted_eq (ImportPath.ascending_sorted _) members).symm

theorem ofContract_agree (keeps : Keeps σ) {catalog : Catalog} (steady : catalog.Steady still σ) {test : Test}
    (sites : Sites) (place : ModulePath) {contract : TraitItem} (own : contract.Steady still σ)
    (module : test.module.map σ = test.module) (name : σ test.function.name = test.function.name) :
    Agree still (Specification.Renamed σ) (ofContract catalog test sites place contract)
      (ofContract (catalog.rename σ) (test.rename σ) (sites.rename σ) (place.map σ) (contract.rename σ)) := by
  have scope : ConstScope.ofBody (test.rename σ).function.body ((catalog.rename σ).constants (test.rename σ).module) =
      (ConstScope.ofBody test.function.body (catalog.constants test.module)).rename σ := by
    have constants : (catalog.rename σ).constants (test.module.map σ) =
        (catalog.constants test.module).map (Tree.rename σ) := by
      rw [Catalog.constants, Catalog.constants, Catalog.scope?_rename]
      cases catalog.scope? test.module <;> rfl
    rw [← ConstScope.ofBody_rename, ← constants]
    rfl
  have each : ∀ signature ∈ Contract.methods contract,
      Agree still (MethodSpecification.Renamed σ)
        (method catalog place (.ofBody test.function.body (catalog.constants test.module)) sites signature)
        (method (catalog.rename σ) (place.map σ)
          ((ConstScope.ofBody test.function.body (catalog.constants test.module)).rename σ) (sites.rename σ)
          (signature.rename σ)) := by
    intro signature member
    obtain ⟨steadySignature, quiet⟩ := own.method member
    exact method_agree keeps steady.aliases place _ sites steadySignature quiet
  obtain ⟨problems, methods⟩ := results_alike each
  have function : (test.rename σ).function.name = test.function.name := by
    rw [Test.rename, Function.name, Function.rename, Tree.signatureName_rename σ keeps.blank]
    exact name
  simp only [ofContract, scope, Contract.methods_rename, List.isEmpty_iff, problems.empty]
  split
  · refine .ok ⟨?_, ?_, own.name, rfl, importsOf_rename keeps catalog place contract, methods⟩
    · rw [function]
      simp only [Test.rename, Catalog.rename, module, steady.root]
    · rw [function]
      simp only [Test.rename, Catalog.rename, module, steady.root]
  · exact .error fun stays => (problems.same stays).symm

/-- Renaming leaves the specification of a steady test as it is, but for what it repeats of the contract. -/
theorem ofTest_agree (keeps : Keeps σ) {catalog : Catalog} (steady : catalog.Steady still σ) {test : Test}
    (sites : Sites) (module : test.module.map σ = test.module) (name : σ test.function.name = test.function.name)
    (quiet : ∀ marker ∈ sites.markers, QuietMarker still σ marker) :
    Agree still (Option.Rel (Specification.Renamed σ)) (ofTest catalog test sites)
      (ofTest (catalog.rename σ) (test.rename σ) (sites.rename σ)) := by
  have function : (test.rename σ).function.name = test.function.name := by
    rw [Test.rename, Function.name, Function.rename, Tree.signatureName_rename σ keeps.blank]
    exact name
  have key : Name.key (catalog.rename σ).root (test.rename σ).module (test.rename σ).function.name =
      Name.key catalog.root test.module test.function.name := by
    rw [function]
    simp only [Test.rename, Catalog.rename, module, steady.root]
  simp only [ofTest, Sites.markers_rename, key]
  cases listed : sites.markers with
  | nil => exact .ok .none
  | cons marker others =>
      rw [listed] at quiet
      have agree := contractOf_agree keeps catalog test.module (quiet marker List.mem_cons_self)
      simp only [List.map_cons]
      rw [show (test.rename σ).module = test.module.map σ from rfl]
      cases found : contractOf catalog test.module marker with
      | error problem =>
          rw [found] at agree
          generalize contractOf (catalog.rename σ) (test.module.map σ) (marker.rename σ) = result' at agree
          cases agree with
          | error same => exact .error fun stays => by rw [same stays]
      | ok own =>
          obtain ⟨place, contract⟩ := own
          rw [found] at agree
          generalize contractOf (catalog.rename σ) (test.module.map σ) (marker.rename σ) = result' at agree
          cases agree with
          | ok same =>
              cases same
              obtain ⟨path, _, _, resolved⟩ := contractOf_eq_ok found
              have own := steady.contracts _ _ _ _ resolved
              have alike := otherMarkerProblem?_renamed keeps steady test
                (Name.key catalog.root test.module test.function.name) place contract own.name
                fun marker member => quiet marker (List.mem_cons_of_mem _ member)
              have members := Contract.memberProblems_alike own
              have built := ofContract_agree keeps steady sites place own module name
              simp only [Contract.problem?_rename own.name]
              generalize others.filterMap _ = problems, (others.map _).filterMap _ = problems' at alike ⊢
              rcases alike.cases_nil with ⟨rfl, rfl⟩ | ⟨first, more, first', more', rfl, rfl, same⟩
              · generalize Contract.memberProblems contract = problems,
                  Contract.memberProblems (contract.rename σ) = problems' at members ⊢
                cases Contract.problem? contract with
                | some problem => exact .error fun _ => rfl
                | none =>
                    rcases members.cases_nil with ⟨rfl, rfl⟩ | ⟨first, more, first', more', rfl, rfl, same⟩
                    · generalize ofContract catalog test sites place contract = result,
                        ofContract (catalog.rename σ) (test.rename σ) (sites.rename σ) (place.map σ)
                          (contract.rename σ) = result' at built ⊢
                      cases built with
                      | ok same => exact .ok (.some same)
                      | error same => exact .error same
                    · exact .error same
              · exact .error same

end Specification

end TestDouble
