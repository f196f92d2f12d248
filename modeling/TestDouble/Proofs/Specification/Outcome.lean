import Mathlib
import TestDouble.Proofs.Source.Plain
import TestDouble.Proofs.Specification
/-!
# What comes of a contract

A test whose creation sites all name one contract that doubles can be made of gets a specification if every method
of the contract suits: its result type resolves, and a constant that the test configures for it is a value of this
type. The specification then has one method for each of the contract, in order. Otherwise there is one problem for
each method that does not suit, in order, and no specification.

The methods of a contract are the members that are read as methods. What is kept unread, as a member behind `pub` or
`default`, is none: no trait may have it.
-/

namespace TestDouble.Specification

section Methods

variable (catalog : Catalog) (test : Test) (sites : Sites) (place : ModulePath)

def testScope : ConstScope := .ofBody test.function.body (catalog.constants test.module)

/-- The constant that a test configures for a method: its last configuration counts, if its argument is one. -/
def givenConstant? (signature : Tree) : Option Constant :=
  (sites.configured? signature.signatureName).join.bind (testScope catalog test).evaluate

/-- A double can have the method: its result type resolves, and the constant configured for it fits. -/
def Suits (signature : Tree) : Prop :=
  ∃ type, ResultType.ofSignature catalog place signature = .ok type ∧
    ∀ value, givenConstant? catalog test sites signature = some value → (type.constant? value).isSome = true

/-- What is wrong with a method that does not suit. That a type does not resolve comes before all else. -/
inductive Offends (signature : Tree) : Problem → Prop where
  | unresolvable {fault : TypeFault} (untyped : ResultType.ofSignature catalog place signature = .error fault) :
      Offends signature (.unresolvableMember signature.signatureName fault.message)
  | mismatched {type : Descriptor} {value : Constant}
      (typed : ResultType.ofSignature catalog place signature = .ok type)
      (given : givenConstant? catalog test sites signature = some value) (unfit : type.constant? value = none) :
      Offends signature (.mismatchedValue signature.signatureName (shownResult signature)
        s!"{value.kind} `{value.text}`")

/-- The method of a specification that stands for a method of the contract. -/
structure Implements (signature : Tree) (method : MethodSpecification) : Prop where
  named : method.name = signature.signatureName
  rebased : method.signature = Import.rebase catalog place signature
  typed : ResultType.ofSignature catalog place signature = .ok method.type
  configured : method.configured = givenConstant? catalog test sites signature

def isSuitable (signature : Tree) : Bool :=
  match ResultType.ofSignature catalog place signature with
  | .error _ => false
  | .ok type => (givenConstant? catalog test sites signature).all fun value => (type.constant? value).isSome

theorem isSuitable_iff (signature : Tree) :
    isSuitable catalog test sites place signature = true ↔ Suits catalog test sites place signature := by
  unfold isSuitable Suits
  cases ResultType.ofSignature catalog place signature with
  | error fault => simp
  | ok type => simp [Option.all_eq_true]

instance : DecidablePred (Suits catalog test sites place) :=
  fun signature => decidable_of_iff _ (isSuitable_iff catalog test sites place signature)

variable {catalog test sites place} {signature : Tree} {type : Descriptor}

theorem suits_or_offends (signature : Tree) :
    Suits catalog test sites place signature ∨ ∃ problem, Offends catalog test sites place signature problem := by
  cases typed : ResultType.ofSignature catalog place signature with
  | error fault => exact .inr ⟨_, .unresolvable typed⟩
  | ok type =>
    by_cases fits : ∀ value, givenConstant? catalog test sites signature = some value →
        (type.constant? value).isSome = true
    · exact .inl ⟨type, typed, fits⟩
    · push Not at fits
      obtain ⟨value, given, unfit⟩ := fits
      exact .inr ⟨_, .mismatched typed given (by simpa using unfit)⟩

theorem not_suits_of_offends {problem : Problem} (offends : Offends catalog test sites place signature problem) :
    ¬Suits catalog test sites place signature := by
  rintro ⟨type, typed, fits⟩
  cases offends with
  | unresolvable untyped =>
    rw [untyped] at typed
    cases typed
  | mismatched own given unfit =>
    cases own.symm.trans typed
    have held := fits _ given
    rw [unfit] at held
    cases held

theorem method_of_offends {problem : Problem} (offends : Offends catalog test sites place signature problem) :
    Specification.method catalog place (testScope catalog test) sites signature = .error problem := by
  unfold Specification.method
  cases offends with
  | unresolvable untyped => rw [untyped]
  | mismatched typed given unfit =>
    rw [givenConstant?] at given
    simp only [typed, configuredConstant_eq, given, unfit]
    rfl

theorem method_of_suits (suits : Suits catalog test sites place signature) :
    ∃ method, Specification.method catalog place (testScope catalog test) sites signature = .ok method ∧
      Implements catalog test sites place signature method := by
  obtain ⟨type, typed, fits⟩ := suits
  have accepted : configuredConstant (testScope catalog test) signature type
      (sites.configured? signature.signatureName) = .ok (givenConstant? catalog test sites signature) :=
    configuredConstant_eq_ok_iff.mpr ⟨rfl, fits⟩
  unfold Specification.method
  simp only [typed, accepted]
  exact ⟨_, rfl, rfl, rfl, typed, rfl⟩

/-! ### All methods -/

theorem problemsOf_methods (signatures : List Tree) :
    List.Forall₂ (Offends catalog test sites place)
      (signatures.filter fun signature => ¬Suits catalog test sites place signature)
      (problemsOf (signatures.map (Specification.method catalog place (testScope catalog test) sites))) := by
  induction signatures with
  | nil => exact .nil
  | cons first rest later =>
    rcases suits_or_offends first with suits | ⟨problem, offends⟩
    · obtain ⟨method, made, -⟩ := method_of_suits suits
      rw [List.filter_cons_of_neg (by simpa using suits), List.map_cons, made]
      exact later
    · have unsuited := not_suits_of_offends offends
      rw [List.filter_cons_of_pos (by simpa using unsuited), List.map_cons, method_of_offends offends]
      exact .cons offends later

theorem methodsOf_methods {signatures : List Tree}
    (suit : ∀ signature ∈ signatures, Suits catalog test sites place signature) :
    List.Forall₂ (Implements catalog test sites place) signatures
      (methodsOf (signatures.map (Specification.method catalog place (testScope catalog test) sites))) := by
  induction signatures with
  | nil => exact .nil
  | cons first rest later =>
    obtain ⟨own, others⟩ := List.forall_mem_cons.mp suit
    obtain ⟨method, made, implements⟩ := method_of_suits own
    rw [List.map_cons, made]
    exact .cons implements (later others)

theorem ofContract_outcome (catalog : Catalog) (test : Test) (sites : Sites) (place : ModulePath)
    (contract : TraitItem) :
    let signatures := Contract.methods contract
    ((∀ signature ∈ signatures, Suits catalog test sites place signature) →
        ∃ specification, ofContract catalog test sites place contract = .ok specification ∧
          List.Forall₂ (Implements catalog test sites place) signatures specification.methods) ∧
      ((∃ signature ∈ signatures, ¬Suits catalog test sites place signature) →
        ∃ problems, ofContract catalog test sites place contract = .error problems ∧
          List.Forall₂ (Offends catalog test sites place)
            (signatures.filter fun signature => ¬Suits catalog test sites place signature) problems) := by
  intro signatures
  have reported : List.Forall₂ (Offends catalog test sites place) _ _ := problemsOf_methods signatures
  unfold ofContract
  refine ⟨fun suit => ?_, fun unsuited => ?_⟩
  · have nothing : signatures.filter (fun signature => ¬Suits catalog test sites place signature) = [] := by
      rw [List.filter_eq_nil_iff]
      intro signature own
      simpa using suit signature own
    rw [nothing, List.forall₂_nil_left_iff] at reported
    exact ⟨_, if_pos (List.isEmpty_iff.mpr reported), methodsOf_methods suit⟩
  · obtain ⟨signature, own, unsuited⟩ := unsuited
    have something : problemsOf (signatures.map
        (Specification.method catalog place (testScope catalog test) sites)) ≠ [] := by
      intro nothing
      rw [nothing, List.forall₂_nil_right_iff, List.filter_eq_nil_iff] at reported
      exact reported signature own (by simpa using unsuited)
    exact ⟨_, if_neg (by rwa [List.isEmpty_iff]), reported⟩

theorem ofTest_of_accepted {contract : TraitItem} (marked : sites.markers ≠ [])
    (named : ∀ marker ∈ sites.markers, contractOf catalog test.module marker = .ok (place, contract))
    (plain : Contract.problem? contract = none) (supported : Contract.memberProblems contract = []) :
    ofTest catalog test sites = (ofContract catalog test sites place contract).map some := by
  cases found : sites.markers with
  | nil => exact absurd found marked
  | cons marker others =>
    rw [found] at named
    obtain ⟨first, rest⟩ := List.forall_mem_cons.mp named
    have agreeing (key : String) :
        others.filterMap (otherMarkerProblem? catalog test key (place, contract)) = [] := by
      rw [List.filterMap_eq_nil_iff]
      intro other member
      rw [otherMarkerProblem?, rest other member]
      simp
    unfold ofTest
    simp only [found, first, agreeing, plain, supported]

/--
A test whose creation sites all name one contract that passes the checks has a specification exactly if every method
of the contract suits. Then its methods are those of the contract, one for one and in order. Otherwise there is
exactly one problem for each method that does not suit, in order.
-/
theorem ofTest_outcome {contract : TraitItem} (marked : sites.markers ≠ [])
    (named : ∀ marker ∈ sites.markers, contractOf catalog test.module marker = .ok (place, contract))
    (plain : Contract.problem? contract = none) (supported : Contract.memberProblems contract = []) :
    let signatures := Contract.methods contract
    ((∃ specification, ofTest catalog test sites = .ok (some specification)) ↔
        ∀ signature ∈ signatures, Suits catalog test sites place signature) ∧
      (∀ specification, ofTest catalog test sites = .ok (some specification) →
        List.Forall₂ (Implements catalog test sites place) signatures specification.methods) ∧
      ((∃ signature ∈ signatures, ¬Suits catalog test sites place signature) →
        ∃ problems, ofTest catalog test sites = .error problems ∧
          List.Forall₂ (Offends catalog test sites place)
            (signatures.filter fun signature => ¬Suits catalog test sites place signature) problems) := by
  intro signatures
  obtain ⟨success, failure⟩ := ofContract_outcome catalog test sites place contract
  rw [ofTest_of_accepted marked named plain supported]
  by_cases suit : ∀ signature ∈ signatures, Suits catalog test sites place signature
  · obtain ⟨specification, made, implements⟩ := success suit
    rw [made]
    refine ⟨⟨fun _ => suit, fun _ => ⟨specification, rfl⟩⟩, ?_, ?_⟩
    · rintro _ ⟨⟩
      exact implements
    · rintro ⟨signature, own, unsuited⟩
      exact absurd (suit signature own) unsuited
  · push Not at suit
    obtain ⟨problems, made, offend⟩ := failure suit
    rw [made]
    refine ⟨⟨?_, ?_⟩, ?_, fun _ => ⟨problems, rfl, offend⟩⟩
    · rintro ⟨_, ⟨⟩⟩
    · intro all
      obtain ⟨signature, own, unsuited⟩ := suit
      exact absurd (all signature own) unsuited
    · rintro _ ⟨⟩

end Methods

/-- Three methods: the second is configured with a constant that does not fit, and the third has no result type. -/
def mixedItems : List Tree :=
  [Tree.plainTrait "Gauge" [Tree.returningMethod "size" (Tree.namedType ["i32"]),
      Tree.returningMethod "level" (Tree.namedType ["u8"]), Tree.returningMethod "peer" (Tree.namedType ["Self"])],
    Tree.testFunction "reads" [Tree.creation "Ghost" ["Gauge"],
      Tree.configuration "gauge" "level" (Tree.literalExpr "300")]]

/-- Both methods that do not suit are reported, and there is no specification with the first alone. -/
theorem ofTest_outcome_mixed :
    let catalog := Catalog.ofItems "samples" mixedItems
    ∃ test ∈ catalog.tests, ∃ place contract problems,
      ofTest catalog test (Sites.ofBody {} test.function.body) = .error problems ∧ problems.length = 2 ∧
        List.Forall₂ (Offends catalog test (Sites.ofBody {} test.function.body) place)
          ((Contract.methods contract).filter fun signature =>
            ¬Suits catalog test (Sites.ofBody {} test.function.body) place signature) problems := by
  intro catalog
  obtain ⟨test, inCatalog, place, contract, marker, markers, named, plain, supported, size, level, peer, methods,
      untyped, first, second, made⟩ :
      ∃ test ∈ catalog.tests, ∃ place contract marker,
        (Sites.ofBody {} test.function.body).markers = [marker] ∧
        contractOf catalog test.module marker = .ok (place, contract) ∧ Contract.problem? contract = none ∧
        Contract.memberProblems contract = [] ∧ ∃ size level peer, Contract.methods contract = [size, level, peer] ∧
        ResultType.ofSignature catalog place peer = .error .selfType ∧
        ∃ first second, ofTest catalog test (Sites.ofBody {} test.function.body) = .error [first, second] :=
    ⟨_, .head _, _, _, _, rfl, rfl, rfl, rfl, _, _, _, rfl, rfl, _, _, rfl⟩
  have every : ∀ other ∈ (Sites.ofBody {} test.function.body).markers,
      contractOf catalog test.module other = .ok (place, contract) := by
    intro other member
    rw [markers, List.mem_singleton] at member
    rw [member, named]
  obtain ⟨-, -, failure⟩ := ofTest_outcome (by rw [markers]; nofun) every plain supported
  have last : peer ∈ Contract.methods contract := by
    rw [methods]
    simp
  obtain ⟨problems, failed, offend⟩ := failure ⟨peer, last, not_suits_of_offends (.unresolvable untyped)⟩
  cases made.symm.trans failed
  exact ⟨test, inCatalog, place, contract, _, failed, rfl, offend⟩

end TestDouble.Specification
