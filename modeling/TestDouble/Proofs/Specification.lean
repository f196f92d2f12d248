import TestDouble.Proofs.Import.Rebase
import TestDouble.Specification
/-!
# What a specification comes from

A test has a specification only if all its creation sites name one contract that doubles can be made of.
The specification then repeats the contract: its name, its methods with their signatures rebased, and the
imports of the signatures as they were.
-/

namespace TestDouble

/-! ### Contracts -/

namespace Contract

/-- What a trait object asks of a method, apart from the types in its signature. -/
structure Callable (view : Signature) : Prop where
  receiver : hasReceiver view = true
  notAsync : view.asyncness.isAbsent = true
  notConst : view.constness.isAbsent = true
  lifetimes : ∀ parameter ∈ view.generics.parameters, parameter.kind? = some .lifetimeParameter

theorem hasTypeParameters_eq_false_iff {view : Signature} :
    hasTypeParameters view = false ↔
      ∀ parameter ∈ view.generics.parameters, parameter.kind? = some .lifetimeParameter := by
  simp [hasTypeParameters]

theorem methodFault?_eq_none_iff {view : Signature} : methodFault? view = none ↔ Callable view := by
  constructor
  · intro fine
    unfold methodFault? at fine
    split_ifs at fine with static async const generic
    rw [Bool.not_eq_true, Bool.not_eq_false'] at static async const
    exact ⟨static, async, const, hasTypeParameters_eq_false_iff.mp (Bool.eq_false_iff.mpr generic)⟩
  · rintro ⟨receiver, notAsync, notConst, lifetimes⟩
    have plain := hasTypeParameters_eq_false_iff.mpr lifetimes
    simp [methodFault?, receiver, notAsync, notConst, plain]

theorem methodFault?_of_accepted {contract : TraitItem} (accepted : memberProblems contract = [])
    {signature : Tree} (own : signature ∈ methods contract) {view : Signature}
    (viewed : signature.asSignature? = some view) : methodFault? view = none := by
  obtain ⟨member, memberIn, found⟩ := List.mem_filterMap.mp own
  have fine : memberProblem? member = none := by
    rw [memberProblems, List.filterMap_eq_nil_iff] at accepted
    exact accepted member memberIn
  obtain ⟨attributes, body, rfl⟩ := Tree.methodSignature?_shape found
  replace fine : (signature.asSignature?.bind fun view =>
      (methodFault? view).map fun reason => Problem.unsupportedMember view.name reason) = none := fine
  rwa [viewed, Option.bind_some, Option.map_eq_none_iff] at fine

/-- The methods of a contract without problems have no parameters but lifetimes. -/
theorem parameters_of_accepted {contract : TraitItem} (accepted : memberProblems contract = [])
    {signature : Tree} (own : signature ∈ methods contract) {view : Signature}
    (viewed : signature.asSignature? = some view) :
    view.generics.parameters.filterMap Tree.parameterName? = [] := by
  have callable := methodFault?_eq_none_iff.mp (methodFault?_of_accepted accepted own viewed)
  rw [List.filterMap_eq_nil_iff]
  intro parameter member
  have lifetime := callable.lifetimes parameter member
  unfold Tree.parameterName?
  split
  · cases lifetime
  · cases lifetime
  · rfl

end Contract

/-! ### Imports -/

namespace ImportPath

theorem mem_sorted {path : ImportPath} {paths : List ImportPath} : path ∈ sorted paths ↔ path ∈ paths := by
  have general : ∀ found : List ImportPath,
      path ∈ paths.foldl (fun found path => insert path found) found ↔ path ∈ found ∨ path ∈ paths := by
    induction paths with
    | nil => intro found; simp
    | cons first rest ih =>
        intro found
        rw [List.foldl_cons, ih, mem_insert, List.mem_cons, or_comm (a := path = first), or_assoc]
  rw [sorted, general]
  simp

end ImportPath

namespace Import

/--
What is written of a contract that its unit has to import: its own name, and in the signatures of its
methods every path that needs an import.
-/
inductive Written (contract : TraitItem) : List String → Prop where
  | own : Written contract [contract.name]
  | used {signature path : Tree} (method : signature ∈ Contract.methods contract)
      (inside : path ∈ paths signature) (needed : needsImport [] path = true) : Written contract path.names

/-- The parameters of a signature for types and constants, which need no import. -/
def ownParameters (signature : Tree) : List String :=
  match signature.asSignature? with
  | some view => view.generics.parameters.filterMap Tree.parameterName?
  | none => []

theorem mem_needed_iff {catalog : Catalog} {module : ModulePath} {signature : Tree} {found : ImportPath} :
    found ∈ needed catalog module signature ↔
      ∃ path ∈ paths signature, needsImport (ownParameters signature) path = true ∧
        ofPath catalog module path.names = some found := by
  have same : needed catalog module signature =
      ((paths signature).filter (needsImport (ownParameters signature))).filterMap
        fun path => ofPath catalog module path.names := rfl
  rw [same, List.mem_filterMap]
  simp only [List.mem_filter, and_assoc]

theorem mem_needed {catalog : Catalog} {module : ModulePath} {contract : TraitItem}
    (accepted : Contract.memberProblems contract = []) {signature : Tree}
    (own : signature ∈ Contract.methods contract) {found : ImportPath} :
    found ∈ needed catalog module signature ↔
      ∃ path ∈ paths signature, needsImport [] path = true ∧ ofPath catalog module path.names = some found := by
  have none : ownParameters signature = [] := by
    unfold ownParameters
    split
    · rename_i view viewed
      exact Contract.parameters_of_accepted accepted own viewed
    · rfl
  rw [mem_needed_iff, none]

end Import

namespace Specification

/-- A unit imports what is written of its contract and nothing else. -/
theorem mem_importsOf {catalog : Catalog} {module : ModulePath} {contract : TraitItem}
    (accepted : Contract.memberProblems contract = []) {found : ImportPath} :
    found ∈ importsOf catalog module contract ↔
      ∃ names, Import.Written contract names ∧ Import.ofPath catalog module names = some found := by
  rw [importsOf, ImportPath.mem_sorted, List.mem_append, Option.mem_toList, List.mem_flatMap]
  constructor
  · rintro (own | ⟨signature, method, inside⟩)
    · exact ⟨_, .own, own⟩
    · obtain ⟨path, member, needed, computed⟩ := (Import.mem_needed accepted method).mp inside
      exact ⟨path.names, .used method member needed, computed⟩
  · rintro ⟨names, written, computed⟩
    cases written with
    | own => exact .inl computed
    | @used signature path method inside needed =>
        exact .inr ⟨signature, method, (Import.mem_needed accepted method).mpr ⟨path, inside, needed, computed⟩⟩

/-! ### The contract of a creation site -/

/-- A creation site that names a contract does so by a path without arguments that resolves to it. -/
theorem contractOf_eq_ok {catalog : Catalog} {module place : ModulePath} {marker : Call} {contract : TraitItem}
    (found : contractOf catalog module marker = .ok (place, contract)) :
    ∃ path, contractPath marker = .ok path ∧ path.segments.any Tree.hasArguments = false ∧
      catalog.resolve module path.names = some (.trait place contract) := by
  unfold contractOf at found
  split at found
  · cases found
  · rename_i path named
    simp only at found
    split at found
    · cases found
    · rename_i plain
      split at found
      · rename_i resolved
        cases found
        exact ⟨path, named, Bool.eq_false_iff.mpr plain, resolved⟩
      · cases found
      · cases found

/-! ### Configured constants -/

section

variable {scope : ConstScope} {signature : Tree} {type : Descriptor} {recorded : Option (Option Tree)}
  {configured : Option Constant}

theorem configuredConstant_eq (scope : ConstScope) (signature : Tree) (type : Descriptor)
    (recorded : Option (Option Tree)) :
    configuredConstant scope signature type recorded =
      match recorded.join.bind scope.evaluate with
      | none => .ok none
      | some value =>
        if (type.constant? value).isSome then .ok (some value)
        else .error (.mismatchedValue signature.signatureName (shownResult signature)
          s!"{value.kind} `{value.text}`") := by
  match recorded with
  | none => rfl
  | some none => rfl
  | some (some argument) => rfl

/-- A configuration that is no problem configures the value of its argument, which fits. -/
theorem configuredConstant_eq_ok_iff :
    configuredConstant scope signature type recorded = .ok configured ↔
      configured = recorded.join.bind scope.evaluate ∧
        ∀ value, configured = some value → (type.constant? value).isSome = true := by
  rw [configuredConstant_eq]
  cases recorded.join.bind scope.evaluate with
  | none =>
      constructor
      · rintro ⟨⟩
        exact ⟨rfl, nofun⟩
      · rintro ⟨rfl, _⟩
        rfl
  | some value =>
      by_cases fits : (type.constant? value).isSome = true
      · simp only [if_pos fits, Except.ok.injEq]
        constructor
        · rintro rfl
          exact ⟨rfl, fun _ own => Option.some.inj own ▸ fits⟩
        · rintro ⟨rfl, _⟩
          rfl
      · simp only [if_neg fits]
        constructor
        · rintro ⟨⟩
        · rintro ⟨rfl, all⟩
          exact absurd (all value rfl) fits

end

/-! ### The specification of a test -/

/-- That a specification was made for a test from a contract declared in a module. -/
structure Extracted (catalog : Catalog) (test : Test) (sites : Sites) (specification : Specification)
    (place : ModulePath) (contract : TraitItem) : Prop where
  /-- There is a creation site, and the first one names the contract. -/
  first : ∃ marker, sites.marker? = some marker ∧
    contractOf catalog test.module marker = .ok (place, contract)
  /-- All creation sites name a contract of this name in this module. -/
  every : ∀ marker ∈ sites.markers, ∃ other, contractOf catalog test.module marker = .ok (place, other) ∧
    other.name = contract.name
  accepted : Contract.memberProblems contract = []
  generatedName : specification.generatedName =
    Name.generated catalog.root test.module test.function.name
  key : specification.key = Name.key catalog.root test.module test.function.name
  named : specification.contract = contract.name
  imports : specification.imports = importsOf catalog place contract
  methods : ∀ method ∈ specification.methods, ∃ signature ∈ Contract.methods contract,
    method.signature = Import.rebase catalog place signature

theorem otherMarkerProblem?_eq_none {catalog : Catalog} {test : Test} {key : String} {place : ModulePath}
    {contract : TraitItem} {marker : Call}
    (fine : otherMarkerProblem? catalog test key (place, contract) marker = none) :
    ∃ other, contractOf catalog test.module marker = .ok (place, other) ∧ other.name = contract.name := by
  unfold otherMarkerProblem? at fine
  split at fine
  · cases fine
  · rename_i module item found
    split at fine
    · rename_i same
      have parts := Bool.and_eq_true_iff.mp same
      have place := of_decide_eq_true parts.1
      subst place
      exact ⟨item, found, of_decide_eq_true parts.2⟩
    · cases fine

/-- A method of a specification comes with the type of its signature and the constant configured for it. -/
theorem method_eq_ok {catalog : Catalog} {place : ModulePath} {scope : ConstScope} {sites : Sites}
    {signature : Tree} {method : MethodSpecification}
    (built : Specification.method catalog place scope sites signature = .ok method) :
    method.name = signature.signatureName ∧ method.signature = Import.rebase catalog place signature ∧
      ResultType.ofSignature catalog place signature = .ok method.type ∧
      configuredConstant scope signature method.type (sites.configured? method.name) = .ok method.configured := by
  unfold Specification.method at built
  simp only at built
  split at built
  · cases built
  · rename_i type typed
    split at built
    · cases built
    · rename_i configured constant
      cases built
      exact ⟨rfl, rfl, typed, constant⟩

theorem ofContract_builds {catalog : Catalog} {test : Test} {sites : Sites} {place : ModulePath}
    {contract : TraitItem} {specification : Specification}
    (built : ofContract catalog test sites place contract = .ok specification) :
    ∀ method ∈ specification.methods, ∃ signature ∈ Contract.methods contract,
      Specification.method catalog place (.ofBody test.function.body (catalog.constants test.module)) sites
        signature = .ok method := by
  unfold ofContract at built
  simp only at built
  split at built
  · cases built
    intro method member
    obtain ⟨result, resultIn, chosen⟩ := List.mem_filterMap.mp member
    obtain ⟨signature, own, same⟩ := List.mem_map.mp resultIn
    cases result with
    | error problem => cases chosen
    | ok found =>
        cases chosen
        exact ⟨signature, own, same⟩
  · cases built

theorem ofContract_methods {catalog : Catalog} {test : Test} {sites : Sites} {place : ModulePath}
    {contract : TraitItem} {specification : Specification}
    (built : ofContract catalog test sites place contract = .ok specification) :
    ∀ method ∈ specification.methods, ∃ signature ∈ Contract.methods contract,
      method.signature = Import.rebase catalog place signature := by
  intro method member
  obtain ⟨signature, own, made⟩ := ofContract_builds built method member
  obtain ⟨_, rebased, _⟩ := method_eq_ok made
  exact ⟨signature, own, rebased⟩

theorem ofContract_eq_ok {catalog : Catalog} {test : Test} {sites : Sites} {place : ModulePath}
    {contract : TraitItem} {specification : Specification}
    (built : ofContract catalog test sites place contract = .ok specification) :
    specification.generatedName = Name.generated catalog.root test.module test.function.name ∧
      specification.key = Name.key catalog.root test.module test.function.name ∧
      specification.contract = contract.name ∧ specification.imports = importsOf catalog place contract := by
  unfold ofContract at built
  simp only at built
  split at built
  · cases built
    exact ⟨rfl, rfl, rfl, rfl⟩
  · cases built

/-- A test with creation sites is analysed without problems if they agree on a contract without problems. -/
theorem ofTest_cases {catalog : Catalog} {test : Test} {sites : Sites} {result : Option Specification}
    (made : ofTest catalog test sites = .ok result) :
    (sites.markers = [] ∧ result = none) ∨
      ∃ marker others place contract specification, sites.markers = marker :: others ∧
        contractOf catalog test.module marker = .ok (place, contract) ∧
        others.filterMap (otherMarkerProblem? catalog test
          (Name.key catalog.root test.module test.function.name) (place, contract)) = [] ∧
        Contract.memberProblems contract = [] ∧
        ofContract catalog test sites place contract = .ok specification ∧ result = some specification := by
  unfold ofTest at made
  split at made
  · rename_i markers
    cases made
    exact .inl ⟨markers, rfl⟩
  · rename_i marker others markers
    split at made
    · cases made
    · rename_i place contract found
      simp only at made
      split at made
      · cases made
      · rename_i agreeing
        split at made
        · cases made
        · cases made
        · rename_i accepted
          cases built : ofContract catalog test sites place contract with
          | error problems =>
              rw [built] at made
              cases made
          | ok own =>
              rw [built] at made
              cases made
              exact .inr ⟨marker, others, place, contract, own, markers, found, agreeing, accepted, built, rfl⟩

/-- A test is analysed without problems if it has no creation sites, or gets a specification. -/
theorem ofTest_eq_ok {catalog : Catalog} {test : Test} {sites : Sites} {result : Option Specification}
    (made : ofTest catalog test sites = .ok result) :
    (sites.markers = [] ∧ result = none) ∨
      ∃ specification, result = some specification ∧
        ∃ place contract, Extracted catalog test sites specification place contract := by
  rcases ofTest_cases made with
    none | ⟨marker, others, place, contract, own, markers, found, agreeing, accepted, built, rfl⟩
  · exact .inl none
  · obtain ⟨generatedName, key, named, imports⟩ := ofContract_eq_ok built
    refine .inr ⟨own, rfl, place, contract, ?_, ?_, accepted, generatedName, key, named, imports,
      ofContract_methods built⟩
    · exact ⟨marker, by rw [Sites.marker?, markers]; rfl, found⟩
    · intro other member
      rw [markers] at member
      rcases List.mem_cons.mp member with rfl | later
      · exact ⟨contract, found, rfl⟩
      · exact otherMarkerProblem?_eq_none (List.filterMap_eq_nil_iff.mp agreeing other later)

theorem extracted_of_ofTest {catalog : Catalog} {test : Test} {sites : Sites} {specification : Specification}
    (made : ofTest catalog test sites = .ok (some specification)) :
    ∃ place contract, Extracted catalog test sites specification place contract := by
  rcases ofTest_eq_ok made with ⟨_, none⟩ | ⟨_, own, extracted⟩
  · cases none
  · cases own
    exact extracted

theorem ofContract_of_ofTest {catalog : Catalog} {test : Test} {sites : Sites} {specification : Specification}
    (made : ofTest catalog test sites = .ok (some specification)) :
    ∃ place contract, ofContract catalog test sites place contract = .ok specification := by
  rcases ofTest_cases made with ⟨_, none⟩ | ⟨_, _, place, contract, own, _, _, _, _, built, same⟩
  · cases none
  · cases same
    exact ⟨place, contract, built⟩

theorem ofTest_reports {catalog : Catalog} {test : Test} {sites : Sites} :
    ofTest catalog test sites ≠ .error [] := by
  intro failed
  unfold ofTest at failed
  split at failed
  · cases failed
  · split at failed
    · cases failed
    · simp only at failed
      split at failed
      · cases failed
      · split at failed
        · cases failed
        · cases failed
        · unfold ofContract at failed
          simp only at failed
          split at failed
          · cases failed
          · rename_i some
            exact some (List.isEmpty_iff.mpr (Except.error.inj failed))

end Specification

end TestDouble
