import TestDouble.Proofs.Generated.Value
/-!
# Which results are looked up at run time

The body of a method asks for a value configured at run time unless its result type borrows. The type
borrows if any reference or any lifetime but `'static` is written in it, parameter lists included: a
reference counts whatever it refers to and however long it lives. Only what an invocation is given is not
looked at.
-/

namespace TestDouble

namespace Tree

section

variable (closed : Kind → Nat → Bool)

mutual

/-- A tree and the parts of it that stand in no closed child; a child is closed by the kind of its node and its index. -/
def openParts : Tree → List Tree
  | .token t => [.token t]
  | .node kind children => .node kind children :: openPartsFrom kind 0 children

def openPartsFrom (kind : Kind) (index : Nat) : List Tree → List Tree
  | [] => []
  | tree :: rest => (if closed kind index then [] else openParts tree) ++ openPartsFrom kind (index + 1) rest

end

variable {closed}

theorem mem_openPartsFrom {part : Tree} {kind : Kind} {index : Nat} {children : List Tree} :
    part ∈ openPartsFrom closed kind index children ↔
      ∃ offset child, children[offset]? = some child ∧ closed kind (index + offset) = false ∧
        part ∈ child.openParts closed := by
  induction children generalizing index with
  | nil => simp [openPartsFrom]
  | cons first rest ih =>
      rw [openPartsFrom, List.mem_append, ih]
      constructor
      · rintro (here | ⟨offset, child, member, isOpen, inside⟩)
        · split at here
          · cases here
          · rename_i isOpen
            exact ⟨0, first, rfl, Bool.eq_false_iff.mpr isOpen, here⟩
        · exact ⟨offset + 1, child, member, by rwa [Nat.add_comm offset, ← Nat.add_assoc], inside⟩
      · rintro ⟨_ | offset, child, member, isOpen, inside⟩
        · cases member
          rw [Nat.add_zero] at isOpen
          exact .inl (by rwa [isOpen])
        · exact .inr ⟨offset, child, member, by rwa [Nat.add_assoc, Nat.add_comm 1], inside⟩

theorem mem_openParts_node {part : Tree} {kind : Kind} {children : List Tree} :
    part ∈ (node kind children).openParts closed ↔ part = node kind children ∨
      ∃ index child, children[index]? = some child ∧ closed kind index = false ∧ part ∈ child.openParts closed := by
  rw [openParts, List.mem_cons, mem_openPartsFrom]
  simp only [Nat.zero_add]

/-- With fewer children closed there are more parts. -/
theorem openParts_mono {further : Kind → Nat → Bool} (fewer : ∀ kind index, closed kind index → further kind index)
    (tree : Tree) : tree.openParts further ⊆ tree.openParts closed := by
  induction tree using byChildren with
  | token t => exact List.Subset.refl _
  | node kind children ih =>
      intro part inside
      rcases mem_openParts_node.mp inside with rfl | ⟨index, child, member, isOpen, below⟩
      · exact mem_openParts_node.mpr (.inl rfl)
      · refine mem_openParts_node.mpr (.inr ⟨index, child, member, ?_, ih child (List.mem_of_getElem? member) below⟩)
        exact Bool.eq_false_iff.mpr fun shut => Bool.eq_false_iff.mp isOpen (fewer kind index shut)

end

def isReference (tree : Tree) : Bool := tree.kind? == some .typeReference

/-- A reference that says itself that it is never cut short. -/
def isStaticReference : Tree → Bool
  | .node .typeReference (_ :: .node .lifetime [.token (.lifetime name)] :: _) => name == "'static"
  | _ => false

/-- A lifetime that may end, or the label of a loop. -/
def isShortLifetime : Tree → Bool
  | .node .lifetime [.token (.lifetime name)] => name != "'static"
  | _ => false

end Tree

namespace ResultType

/-- What an attribute or an invocation is given. -/
def isGiven (kind : Kind) (_ : Nat) : Bool := kind == .unread || kind == .arguments

/-- What is given, and the parameter lists of function pointers and of bounds such as `Fn(u8)`. -/
def isGivenOrParameter (kind : Kind) (index : Nat) : Bool :=
  isGiven kind index || kind == .typeFunction && index == 4 || kind == .callArguments && index == 1

theorem anyBorrows_iff {trees : List Tree} :
    anyBorrows trees = true ↔ ∃ (index : Nat) (child : Tree), trees[index]? = some child ∧ borrows child = true := by
  rw [anyBorrows_eq_any, List.any_eq_true]
  constructor
  · rintro ⟨child, member, borrowing⟩
    obtain ⟨index, found⟩ := List.mem_iff_getElem?.mp member
    exact ⟨index, child, found, borrowing⟩
  · rintro ⟨index, child, found, borrowing⟩
    exact ⟨child, List.mem_of_getElem? found, borrowing⟩

/-- A type borrows exactly if a reference or a lifetime other than `'static` is written in it. -/
theorem borrows_iff (tree : Tree) : borrows tree = true ↔
    ∃ part ∈ tree.openParts isGiven, part.isReference = true ∨ part.isShortLifetime = true := by
  induction tree using Tree.byChildren with
  | token t => simp [borrows, Tree.openParts, Tree.isReference, Tree.isShortLifetime, Tree.kind?]
  | node kind children ih =>
      rw [borrows.eq_def]
      split
      next t same => cases same
      next given same =>
        cases same
        simp [Tree.mem_openParts_node, isGiven, Tree.isReference, Tree.isShortLifetime, Tree.kind?]
      next given same =>
        cases same
        simp [Tree.mem_openParts_node, isGiven, Tree.isReference, Tree.isShortLifetime, Tree.kind?]
      next inside same =>
        cases same
        exact ⟨fun _ => ⟨_, Tree.mem_openParts_node.mpr (.inl rfl), .inl rfl⟩, fun _ => rfl⟩
      next name same =>
        cases same
        -- the only part besides the lifetime itself is its token
        simp [Tree.openParts, Tree.openPartsFrom, isGiven, Tree.isReference, Tree.isShortLifetime, Tree.kind?]
      next kind children notUnread notArguments notReference notLifetime same =>
        cases same
        have isOpen (index : Nat) : isGiven kind index = false := by
          simp only [isGiven, Bool.or_eq_false_iff, beq_eq_false_iff_ne]
          exact ⟨notUnread, notArguments⟩
        have plain : (Tree.node kind children).isReference = false ∧
            (Tree.node kind children).isShortLifetime = false := by
          constructor
          · simpa [Tree.isReference, Tree.kind?] using notReference
          · unfold Tree.isShortLifetime
            split
            · rename_i name own
              cases own
              exact (notLifetime name rfl rfl).elim
            · rfl
        rw [anyBorrows_iff]
        constructor
        · rintro ⟨index, child, found, borrowing⟩
          obtain ⟨part, inside, counts⟩ := (ih child (List.mem_of_getElem? found)).mp borrowing
          exact ⟨part, Tree.mem_openParts_node.mpr (.inr ⟨index, child, found, isOpen index, inside⟩), counts⟩
        · rintro ⟨part, inside, counts⟩
          rcases Tree.mem_openParts_node.mp inside with rfl | ⟨index, child, found, _, below⟩
          · simp [plain] at counts
          · exact ⟨index, child, found, (ih child (List.mem_of_getElem? found)).mpr ⟨part, below, counts⟩⟩

end ResultType

namespace Tree

theorem sizeAll_append (front back : List Tree) : sizeAll (front ++ back) = sizeAll front + sizeAll back := by
  induction front with
  | nil => rw [List.nil_append, sizeAll, Nat.zero_add]
  | cons first rest ih => rw [List.cons_append, sizeAll, sizeAll, ih, Nat.add_assoc]

end Tree

namespace MethodSpecification

/-- The body looks the value up at run time, and falls back on the one given. -/
def Asks (method : MethodSpecification) (value : List Tree) : Prop :=
  ∃ type, method.signature.resultType? = some type ∧
    method.item = code "#[allow(unused_variables)]" ++
      [method.signature, .group .brace (method.observation ++ (code "self.core.returned::" ++
        [Tree.punct "<", type, Tree.punct ">", .group .paren (method.nameLiteral :: code ", ||" ++ value)]))]

/-- The body ends with the value given, whatever is configured at run time. -/
def Insists (method : MethodSpecification) (value : List Tree) : Prop :=
  method.item = code "#[allow(unused_variables)]" ++
    [method.signature, .group .brace (method.observation ++ value)]

/-- No value is a lookup that holds itself. -/
theorem not_insists_of_asks {method : MethodSpecification} {value : List Tree} (asks : method.Asks value) :
    ¬method.Insists value := by
  intro insists
  obtain ⟨type, _, written⟩ := asks
  have bodies := List.append_cancel_left (insists.symm.trans written)
  simp only [List.cons.injEq, and_true, true_and, Tree.group, Tree.node.injEq] at bodies
  have values := congrArg Tree.sizeAll (List.append_cancel_left bodies)
  simp only [Tree.sizeAll_append, Tree.sizeAll, Tree.size] at values
  omega

theorem asks_or_insists {method : MethodSpecification} (valued : method.type.isNoValue = false) {type : Tree}
    (typed : method.signature.resultType? = some type) {value : List Tree} (baked : method.baked? = some value) :
    (ResultType.isBorrowed method.signature = false ∧ method.Asks value) ∨
      (ResultType.isBorrowed method.signature = true ∧ method.Insists value) := by
  cases endsWith_baked valued typed baked with
  | borrowed borrows written => exact .inr ⟨borrows, written⟩
  | owned owns typed written => exact .inl ⟨owns, _, typed, written⟩

theorem baked?_isSome {method : MethodSpecification} (valued : method.type.isNoValue = false) :
    ∃ value, method.baked? = some value := by
  obtain ⟨default, same⟩ := Descriptor.defaultValue?_isSome valued
  unfold baked?
  rw [same]
  cases method.configured.bind method.type.constant? with
  | none => exact ⟨default, Option.none_or⟩
  | some value => exact ⟨value, Option.some_or⟩

/--
Which methods can be given another value at run time, for every method whose result type has a value. The
body asks for the value configured at run time, and falls back on the value baked in, exactly if no
reference and no lifetime but `'static` is written in the result type, invocations aside; it ends with the value baked in,
whatever is configured, exactly if there is one. Then the result counts as borrowed. In particular a
reference that is not `'static` or a lifetime that may end does, where it stands outside of the parameter
lists of function types.
-/
theorem asks_iff {method : MethodSpecification} (valued : method.type.isNoValue = false) {type : Tree}
    (typed : method.signature.resultType? = some type) :
    ∃ value, method.baked? = some value ∧
      (method.Asks value ↔
        ∀ part ∈ type.openParts ResultType.isGiven, part.isReference = false ∧ part.isShortLifetime = false) ∧
      (method.Insists value ↔
        ∃ part ∈ type.openParts ResultType.isGiven, part.isReference = true ∨ part.isShortLifetime = true) ∧
      (ResultType.isBorrowed method.signature = true ↔ method.Insists value) ∧
      ((∃ part ∈ type.openParts ResultType.isGivenOrParameter,
          (part.isReference = true ∧ part.isStaticReference = false) ∨ part.isShortLifetime = true) →
        ResultType.isBorrowed method.signature = true) := by
  obtain ⟨value, baked⟩ := baked?_isSome valued
  have exact : ResultType.isBorrowed method.signature = true ↔
      ∃ part ∈ type.openParts ResultType.isGiven, part.isReference = true ∨ part.isShortLifetime = true := by
    unfold ResultType.isBorrowed
    rw [typed]
    exact ResultType.borrows_iff type
  have insists : ResultType.isBorrowed method.signature = true ↔ method.Insists value := by
    rcases asks_or_insists valued typed baked with ⟨owns, asks⟩ | ⟨borrows, insists⟩
    · exact ⟨fun borrows => absurd (owns.symm.trans borrows) (by decide),
        fun insists => absurd insists (not_insists_of_asks asks)⟩
    · exact ⟨fun _ => insists, fun _ => borrows⟩
  have asks : method.Asks value ↔ ¬ResultType.isBorrowed method.signature = true := by
    rw [insists]
    refine ⟨not_insists_of_asks, fun free => ?_⟩
    rcases asks_or_insists valued typed baked with ⟨_, asks⟩ | ⟨_, insists⟩
    · exact asks
    · exact absurd insists free
  refine ⟨value, baked, ?_, insists.symm.trans exact, insists, ?_⟩
  · rw [asks, exact]
    simp only [not_exists, not_and, not_or, Bool.not_eq_true]
  · rintro ⟨part, inside, counts⟩
    have wider : ∀ kind index, ResultType.isGiven kind index → ResultType.isGivenOrParameter kind index := by
      intro kind index given
      rw [ResultType.isGivenOrParameter, given, Bool.true_or, Bool.true_or]
    exact exact.mpr ⟨part, Tree.openParts_mono wider type inside, counts.imp_left And.left⟩

end MethodSpecification

namespace Specification

/-- A contract whose methods return a static string, an optional function on references, and a shared string. -/
def labelItems : List Tree :=
  let static := Tree.node .lifetime [.token (.lifetime "'static")]
  let reference := fun life type => Tree.node .typeReference [Tree.punct "&", life, Tree.absent, type]
  let applied := fun name arguments => Tree.node .typePath [.node .path [Tree.absent, .node .segment
    [Tree.ident name, .node .genericArguments ([Tree.absent, Tree.punct "<"] ++ arguments ++ [Tree.punct ">"])]]]
  let hook := Tree.node .typeFunction [Tree.absent, Tree.absent, Tree.absent, Tree.ident "fn",
    .group .paren [.node .input [Tree.noAttributes, reference Tree.absent (Tree.namedType ["u8"])]], Tree.absent]
  [Tree.plainTrait "Label"
      [Tree.returningMethod "name" (reference static (Tree.namedType ["str"])),
        Tree.returningMethod "hook" (applied "Option" [hook]),
        Tree.returningMethod "shared" (applied "Cow" [static, Tree.punct ",", Tree.namedType ["str"]])],
    Tree.testFunction "names" [Tree.creation "Ghost" ["Label"]]]

end Specification

namespace MethodSpecification

open Specification (ofTest labelItems)

theorem asks_iff_shared : ∃ test ∈ (Catalog.ofItems "samples" labelItems).tests, ∃ specification,
    ofTest (.ofItems "samples" labelItems) test (Sites.ofBody {} test.function.body) = .ok (some specification) ∧
    ∃ shared ∈ specification.methods, shared.name = "shared" ∧ shared.type.isNoValue = false ∧
      ∃ type, shared.signature.resultType? = some type ∧ ∃ value, shared.baked? = some value ∧ shared.Asks value := by
  obtain ⟨test, member, specification, made, shared, own, named, valued, type, typed, static⟩ :
      ∃ test ∈ (Catalog.ofItems "samples" labelItems).tests, ∃ specification,
        ofTest (.ofItems "samples" labelItems) test (Sites.ofBody {} test.function.body) = .ok (some specification) ∧
        ∃ shared ∈ specification.methods, shared.name = "shared" ∧ shared.type.isNoValue = false ∧
          ∃ type, shared.signature.resultType? = some type ∧
            ∀ part ∈ type.openParts ResultType.isGiven, part.isReference = false ∧ part.isShortLifetime = false :=
    ⟨_, .head _, _, rfl, _, .tail _ (.tail _ (.head _)), rfl, rfl, _, rfl, by decide +kernel⟩
  obtain ⟨value, baked, asks, _⟩ := asks_iff valued typed
  exact ⟨test, member, specification, made, shared, own, named, valued, type, typed, value, baked, asks.mpr static⟩

/-- A static string, and an optional function on references, are fixed although nothing in them can be cut short. -/
theorem static_fixed : ∃ test ∈ (Catalog.ofItems "samples" labelItems).tests, ∃ specification,
    ofTest (.ofItems "samples" labelItems) test (Sites.ofBody {} test.function.body) = .ok (some specification) ∧
    ∃ name hook shared, specification.methods = [name, hook, shared] ∧
      ∀ method ∈ [name, hook], method.type.isNoValue = false ∧
        ∃ type, method.signature.resultType? = some type ∧
          (∀ part ∈ type.openParts ResultType.isGivenOrParameter,
            (part.isReference = true → part.isStaticReference = true) ∧ part.isShortLifetime = false) ∧
          ResultType.isBorrowed method.signature = true ∧
          ∀ value, method.baked? = some value → method.Insists value ∧ ¬method.Asks value := by
  obtain ⟨test, member, specification, made, name, hook, shared, methods, each⟩ :
      ∃ test ∈ (Catalog.ofItems "samples" labelItems).tests, ∃ specification,
        ofTest (.ofItems "samples" labelItems) test (Sites.ofBody {} test.function.body) = .ok (some specification) ∧
        ∃ name hook shared, specification.methods = [name, hook, shared] ∧
          ∀ method ∈ [name, hook], method.type.isNoValue = false ∧
            ∃ type, method.signature.resultType? = some type ∧
              (∀ part ∈ type.openParts ResultType.isGivenOrParameter,
                (part.isReference = true → part.isStaticReference = true) ∧ part.isShortLifetime = false) ∧
              ResultType.isBorrowed method.signature = true := by
    refine ⟨_, .head _, _, rfl, _, _, _, rfl, ?_⟩
    simp only [List.mem_cons, List.not_mem_nil, or_false, forall_eq_or_imp, forall_eq]
    exact ⟨⟨rfl, _, rfl, by decide +kernel, rfl⟩, rfl, _, rfl, by decide +kernel, rfl⟩
  refine ⟨test, member, specification, made, name, hook, shared, methods, fun method own => ?_⟩
  obtain ⟨valued, type, typed, static, borrows⟩ := each method own
  refine ⟨valued, type, typed, static, borrows, fun value baked => ?_⟩
  rcases asks_or_insists valued typed baked with ⟨owns, _⟩ | ⟨_, insists⟩
  · cases owns.symm.trans borrows
  · exact ⟨insists, fun asks => not_insists_of_asks asks insists⟩

end MethodSpecification

end TestDouble
