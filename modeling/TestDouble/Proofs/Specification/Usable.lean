import Mathlib
import TestDouble.Proofs.ResultType.Alias
import TestDouble.Proofs.ResultType.Imported
import TestDouble.Proofs.Source.Children
import TestDouble.Proofs.Specification.Outcome
/-!
# Contracts as trait objects

A method can be called through a trait object if it has a receiver, no modifiers and no parameters in angle brackets
but lifetimes, and if neither its other parameters nor its result mention `Self` or `impl Trait`. Of an accepted
contract the first part always holds. Of the second only so much does: what the result type unfolds to, through
parentheses, tuples and aliases, is neither `impl Trait` nor begins with `Self`. Nothing else of a type is looked at,
so a contract stays accepted whatever stands in parameters, in generic arguments, in arrays and in slices.
-/

namespace TestDouble

namespace ResultType

/-- A type that depends on who implements the trait, or on who calls: `impl Trait`, or a path from `Self`. -/
inductive Dependent : Tree → Prop where
  | implTrait (children : List Tree) : Dependent (.node .typeImpl children)
  | ofSelf {path : Tree} (head : path.names.head? = some "Self") : Dependent (.node .typePath [path])

variable {catalog : Catalog} {place : ModulePath} {left right type part : Tree} {descriptor : Descriptor}

theorem ofPath_self {path : Tree} (head : path.names.head? = some "Self")
    (follow : ModulePath → Tree → Except TypeFault Descriptor) :
    ofPath catalog place path follow = .error .selfType := by
  obtain ⟨rest, names⟩ := List.head?_eq_some_iff.mp head
  have last := List.getLast?_eq_some_getLast (List.cons_ne_nil "Self" rest)
  rw [ofPath, names]
  simp only [List.head?_cons, last, if_true]

theorem Dependent.rejected (dependent : Dependent part) (catalog : Catalog) (fuel : Nat) (place : ModulePath) :
    resolveWithin catalog fuel place part ≠ .ok descriptor := by
  intro accepted
  cases fuel with
  | zero => cases accepted
  | succ fuel =>
    cases dependent with
    | implTrait => cases accepted
    | ofSelf head =>
      obtain ⟨rest, names⟩ := List.head?_eq_some_iff.mp head
      rw [resolveWithin_names catalog fuel place names, ofPath_self head] at accepted
      cases accepted

/-- What an accepted type unfolds to depends on nobody. -/
theorem independent_of_accepted (accepted : resolve catalog place type = .ok descriptor) {inner : ModulePath}
    (leads : Relation.ReflTransGen (Unfolds catalog) (place, type) (inner, part)) : ¬Dependent part := by
  intro dependent
  rcases Relation.reflTransGen_iff_eq_or_transGen.mp leads with same | deeper
  · cases same
    exact dependent.rejected catalog _ _ accepted
  · obtain ⟨fuel, -, found, reached⟩ := accepted_of_transGen deeper accepted
    exact dependent.rejected catalog _ _ reached

/-! ### What is not looked at -/

/-- Types that differ at most in what stands in generic arguments, in arrays and in slices. -/
inductive SameOutline : Tree → Tree → Prop where
  | same (type : Tree) : SameOutline type type
  | path {left right : Tree} (plain : left.kind? ≠ some .qualified) (plain' : right.kind? ≠ some .qualified)
      (root : left.isRootPath = right.isRootPath) (names : left.names = right.names) :
      SameOutline (.node .typePath [left]) (.node .typePath [right])
  | array (left right : List Tree) : SameOutline (.node .typeArray left) (.node .typeArray right)
  | slice (mark lifetime mutability : Tree) (left right : List Tree) :
      SameOutline (.node .typeReference [mark, lifetime, mutability, .node .typeSlice left])
        (.node .typeReference [mark, lifetime, mutability, .node .typeSlice right])
  | paren {left right : Tree} (inside : SameOutline left right) :
      SameOutline (.node .typeParen [Tree.group .paren [left]]) (.node .typeParen [Tree.group .paren [right]])
  | tuple {left right : Tree} (each : List.Forall₂ SameOutline left.elements right.elements) :
      SameOutline (.node .typeTuple [left]) (.node .typeTuple [right])

theorem Interchangeable.refl (result : Except TypeFault Descriptor) : Interchangeable result result := by
  cases result with
  | error fault => trivial
  | ok descriptor => exact ⟨rfl, fun _ => rfl⟩

theorem ofPath_congr (root : left.isRootPath = right.isRootPath) (names : left.names = right.names)
    (follow : ModulePath → Tree → Except TypeFault Descriptor) :
    ofPath catalog place left follow = ofPath catalog place right follow := by
  unfold ofPath
  rw [root, names]

theorem mapM_interchangeable {resolve : Tree → Except TypeFault Descriptor} {left right : List Tree}
    (each : List.Forall₂ (fun first second => Interchangeable (resolve first) (resolve second)) left right) :
    Interchangeable ((left.mapM resolve).map .tuple) ((right.mapM resolve).map .tuple) := by
  -- The default of a tuple does not depend on its elements, so only whether they are accepted matters.
  induction each with
  | nil => exact Interchangeable.refl _
  | @cons first second firsts seconds own _ later =>
    rw [List.mapM_cons, List.mapM_cons]
    cases here : resolve first <;> cases there : resolve second <;> rw [here, there] at own
    case error.error => trivial
    case error.ok => exact own.elim
    case ok.error => exact own.elim
    case ok.ok =>
      cases before : firsts.mapM resolve <;> cases after : seconds.mapM resolve <;> rw [before, after] at later
      case error.error => trivial
      case error.ok => exact later.elim
      case ok.error => exact later.elim
      case ok.ok => exact ⟨rfl, fun _ => rfl⟩

theorem SameOutline.interchangeable (same : SameOutline left right) (fuel : Nat) :
    Interchangeable (resolveWithin catalog fuel place left) (resolveWithin catalog fuel place right) := by
  induction fuel generalizing left right with
  | zero => trivial
  | succ fuel shorter =>
    cases same with
    | same type => exact Interchangeable.refl _
    | path plain plain' root names =>
      rw [resolveWithin_path _ _ _ plain, resolveWithin_path _ _ _ plain', ofPath_congr root names]
      exact Interchangeable.refl _
    | array left right => exact ⟨rfl, fun _ => rfl⟩
    | slice mark lifetime mutability left right => exact Interchangeable.refl _
    | paren inside => exact shorter inside
    | @tuple left right each =>
      have inside := mapM_interchangeable (each.imp fun _ _ same => shorter same)
      rw [resolveWithin, resolveWithin]
      cases first : left.elements <;> cases second : right.elements <;> rw [first, second] at each inside
      case nil.nil => exact Interchangeable.refl _
      case nil.cons => cases each
      case cons.nil => cases each
      case cons.cons => exact inside

end ResultType

namespace Specification
open ResultType

variable {catalog : Catalog} {test : Test} {sites : Sites} {place : ModulePath}

/-- That a method stands in place of another: it has the same name, and a result type of the same outline. -/
structure Replaces (other signature : Tree) : Prop where
  named : other.signatureName = signature.signatureName
  result : Option.Rel SameOutline signature.resultType? other.resultType?

theorem Replaces.interchangeable {signature other : Tree} (replaces : Replaces other signature) :
    Interchangeable (ofSignature catalog place signature) (ofSignature catalog place other) := by
  obtain ⟨-, result⟩ := replaces
  unfold ofSignature
  cases first : signature.resultType? <;> cases second : other.resultType? <;> rw [first, second] at result
  case none.none => exact Interchangeable.refl _
  case none.some => cases result
  case some.none => cases result
  case some.some =>
    cases result with
    | some same => exact same.interchangeable maxDepth

theorem Suits.replaced {signature other : Tree} (suits : Suits catalog test sites place signature)
    (replaces : Replaces other signature) : Suits catalog test sites place other := by
  obtain ⟨type, typed, fits⟩ := suits
  have alike : Interchangeable (ofSignature catalog place signature) (ofSignature catalog place other) :=
    replaces.interchangeable
  rw [typed] at alike
  cases own : ofSignature catalog place other with
  | error fault =>
    rw [own] at alike
    exact alike.elim
  | ok descriptor =>
    rw [own] at alike
    refine ⟨descriptor, own, fun value given => ?_⟩
    rw [givenConstant?, replaces.named] at given
    rw [← alike.2 value]
    exact fits value given

theorem suits_of_ofTest {specification : Specification}
    (made : ofTest catalog test sites = .ok (some specification)) :
    ∃ marker place contract, sites.marker? = some marker ∧
      contractOf catalog test.module marker = .ok (place, contract) ∧ Contract.memberProblems contract = [] ∧
      ∀ signature ∈ Contract.methods contract, Suits catalog test sites place signature := by
  obtain ⟨-, none⟩ | ⟨marker, others, place, contract, own, markers, named, -, accepted, built, -⟩ :=
    ofTest_cases made
  · cases none
  · refine ⟨marker, place, contract, by rw [Sites.marker?, markers, List.head?_cons], named, accepted, ?_⟩
    by_contra unsuited
    push Not at unsuited
    obtain ⟨problems, failed, -⟩ := (ofContract_outcome catalog test sites place contract).2 unsuited
    rw [built] at failed
    cases failed

/--
Every method of an accepted contract has a receiver, is neither asynchronous nor constant, and has no parameters in
angle brackets but lifetimes; and its result type unfolds to nothing that is `impl Trait` or begins with `Self`. That
is all: any method with these modifiers is accepted in its place, whatever types its parameters have, and whatever
stands in the generic arguments, arrays and slices of its result.
-/
theorem ofTest_usable {specification : Specification}
    (made : ofTest catalog test sites = .ok (some specification)) :
    ∃ marker place contract, sites.marker? = some marker ∧
      contractOf catalog test.module marker = .ok (place, contract) ∧
      ∀ signature ∈ Contract.methods contract,
        (∀ view, signature.asSignature? = some view → Contract.Callable view) ∧
        (∀ type, signature.resultType? = some type → ∀ inner part,
          Relation.ReflTransGen (Unfolds catalog) (place, type) (inner, part) → ¬Dependent part) ∧
        ∀ other view, Replaces other signature → other.asSignature? = some view → Contract.Callable view →
          Contract.methodFault? view = none ∧
            ∃ method, Specification.method catalog place (testScope catalog test) sites other = .ok method := by
  obtain ⟨marker, place, contract, first, named, accepted, suit⟩ := suits_of_ofTest made
  refine ⟨marker, place, contract, first, named, fun signature own => ⟨?_, ?_, ?_⟩⟩
  · intro view viewed
    exact Contract.methodFault?_eq_none_iff.mp (Contract.methodFault?_of_accepted accepted own viewed)
  · intro type written inner part leads
    obtain ⟨descriptor, typed, -⟩ := suit signature own
    rw [ofSignature, written] at typed
    exact independent_of_accepted typed leads
  · intro other view replaces viewed callable
    obtain ⟨method, made, -⟩ := method_of_suits ((suit signature own).replaced replaces)
    exact ⟨Contract.methodFault?_eq_none_iff.mpr callable, method, made⟩

/-! ### What is accepted all the same -/

def MentionsImpl (tree : Tree) : Prop := ∃ children, Tree.node .typeImpl children ∈ tree.subtrees

def MentionsSelf (tree : Tree) : Prop :=
  ∃ path, Tree.node .typePath [path] ∈ tree.subtrees ∧ path.names.head? = some "Self"

/-- A method that can be called through a trait object, its types included. -/
structure Usable (view : Signature) : Prop extends Contract.Callable view where
  inputs : ∀ input ∈ view.inputs.elements, input.kind? ≠ some .receiver → ¬MentionsImpl input ∧ ¬MentionsSelf input
  output : ¬MentionsSelf view.output

def cloneable : Tree :=
  .node .typeImpl [Tree.ident "impl", .node .traitBound [Tree.absent, Tree.absent, Tree.plainPath ["Clone"]]]

def maybeSelf : Tree :=
  let arguments := Tree.node .genericArguments
    [Tree.absent, Tree.punct "<", Tree.namedType ["Self"], Tree.punct ">"]
  .node .typePath [.node .path [Tree.absent, .node .segment [Tree.ident "Option", arguments]]]

/-- `fn put(&self, value: impl Clone); fn merge(&self, value: Self); fn copy(&self) -> Option<Self>;` -/
def copyingItems : List Tree :=
  [Tree.plainTrait "Store" [Tree.takingMethod "put" cloneable, Tree.takingMethod "merge" (Tree.namedType ["Self"]),
      Tree.returningMethod "copy" maybeSelf],
    Tree.testFunction "copies" [Tree.creation "Ghost" ["Store"]]]

/-- Every method of this contract has the modifiers, and its result does not begin with `Self`. -/
theorem ofTest_usable_copying :
    let catalog := Catalog.ofItems "samples" copyingItems
    ∃ test ∈ catalog.tests, ∃ specification,
      ofTest catalog test (Sites.ofBody {} test.function.body) = .ok (some specification) ∧
      ∃ marker place contract, (Sites.ofBody {} test.function.body).marker? = some marker ∧
        contractOf catalog test.module marker = .ok (place, contract) ∧
        ∀ signature ∈ Contract.methods contract,
          (∀ view, signature.asSignature? = some view → Contract.Callable view) ∧
            ∀ type, signature.resultType? = some type → ¬Dependent type := by
  intro catalog
  obtain ⟨test, inCatalog, specification, made⟩ : ∃ test ∈ catalog.tests, ∃ specification,
      ofTest catalog test (Sites.ofBody {} test.function.body) = .ok (some specification) := ⟨_, .head _, _, rfl⟩
  obtain ⟨marker, place, contract, first, named, each⟩ := ofTest_usable made
  refine ⟨test, inCatalog, specification, made, marker, place, contract, first, named, fun signature own => ?_⟩
  obtain ⟨callable, independent, -⟩ := each signature own
  exact ⟨callable, fun type written => independent type written place type .refl⟩

/-- No method of this contract can be called through a trait object, and the contract is accepted. -/
theorem accepted_unusable :
    let catalog := Catalog.ofItems "samples" copyingItems
    ∃ test ∈ catalog.tests, ∃ specification marker place contract put merge copy,
      ofTest catalog test (Sites.ofBody {} test.function.body) = .ok (some specification) ∧
      (Sites.ofBody {} test.function.body).marker? = some marker ∧
      contractOf catalog test.module marker = .ok (place, contract) ∧
      (Contract.methods contract).map Tree.asSignature? = [some put, some merge, some copy] ∧
      ¬Usable put ∧ ¬Usable merge ∧ ¬Usable copy := by
  refine ⟨_, .head _, _, _, _, _, _, _, _, rfl, rfl, rfl, rfl, ?_, ?_, ?_⟩
  · intro usable
    obtain ⟨noImpl, -⟩ := usable.inputs _ (.tail _ (.head _)) (by decide)
    exact noImpl ⟨_, List.mem_of_getElem? (i := 7) rfl⟩
  · intro usable
    obtain ⟨-, noSelf⟩ := usable.inputs _ (.tail _ (.head _)) (by decide)
    exact noSelf ⟨_, List.mem_of_getElem? (i := 7) rfl, rfl⟩
  · intro usable
    exact usable.output ⟨_, List.mem_of_getElem? (i := 10) rfl, rfl⟩

end Specification

end TestDouble
