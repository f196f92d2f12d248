import TestDouble.Proofs.Catalog.Tests
import TestDouble.Proofs.Renaming.Tree
import TestDouble.Specification
/-!
# Names that are shown

Keys, generated names and messages are made of the names that modules, functions and contracts are declared
under, and some messages quote source as well. A tree is steady under a renaming that keeps the former, and the
latter where it matters.
-/

namespace TestDouble

namespace Tree

/-- The name that a node declares a module, function, contract or member of one under. -/
def declaredName? : Tree → Option String
  | .node .itemMod (_ :: _ :: _ :: _ :: .token (.ident name) :: _) => some name
  | .node .itemTrait (_ :: _ :: _ :: _ :: _ :: .token (.ident name) :: _) => some name
  | .node .traitConst (_ :: _ :: .token (.ident name) :: _) => some name
  | .node .traitType (_ :: _ :: .token (.ident name) :: _) => some name
  | .node .signature (_ :: _ :: _ :: _ :: _ :: .token (.ident name) :: _) => some name
  | _ => none

/--
The parts of a node that messages quote: what a creation site names, the result type of a method of a contract,
the path of a macro in one, and the type that an alias stands for.
-/
def quotedParts : Tree → List Tree
  | .node .call [attributes, callee, arguments] =>
    if ({} : Settings).isMarker ⟨attributes, callee, arguments⟩ then (Specification.typeArguments? callee).getD [] else []
  | .node .traitFn [_, signature, _] => signature.resultType?.toList
  | .node .traitInvocation (_ :: .node .invocation (path :: _) :: _) => [path]
  | .node .itemType [_, _, _, _, _, _, _, _, type, _, _] => [type]
  | _ => []

/--
That a renaming keeps the names which declarations in a tree are shown under, and, if messages are to stay, what
messages quote of it.
-/
structure Steady (still : Prop) (σ : Equiv.Perm String) (tree : Tree) : Prop where
  names : ∀ part ∈ tree.subtrees, ∀ name, part.declaredName? = some name → σ name = name
  quotes : still → ∀ part ∈ tree.subtrees, ∀ quoted ∈ part.quotedParts, quoted.rename σ = quoted

namespace Steady

variable {still : Prop} {σ : Equiv.Perm String}

theorem child {kind : Kind} {children : List Tree} (steady : (node kind children).Steady still σ) {child : Tree}
    (member : child ∈ children) : child.Steady still σ where
  names part inside := steady.names part (subtrees_child member inside)
  quotes stays part inside := steady.quotes stays part (subtrees_child member inside)

theorem own_name {tree : Tree} (steady : tree.Steady still σ) {name : String} (own : tree.declaredName? = some name) :
    σ name = name :=
  steady.names tree (mem_subtrees_self tree) name own

theorem own_quotes {tree : Tree} (steady : tree.Steady still σ) (stays : still) :
    ∀ quoted ∈ tree.quotedParts, quoted.rename σ = quoted :=
  steady.quotes stays tree (mem_subtrees_self tree)

theorem asSignature? {signature : Tree} (steady : signature.Steady still σ) {view : Signature}
    (viewed : signature.asSignature? = some view) : σ view.name = view.name := by
  unfold Tree.asSignature? at viewed
  split at viewed
  · cases viewed
    exact steady.own_name rfl
  · cases viewed

theorem signatureName {signature : Tree} (steady : signature.Steady still σ) (blank : σ "" = "") :
    σ signature.signatureName = signature.signatureName := by
  rw [Tree.signatureName]
  cases viewed : signature.asSignature? with
  | none => exact blank
  | some view => exact steady.asSignature? viewed

end Steady

end Tree

variable {still : Prop} {σ : Equiv.Perm String}

/-- That a contract is shown under a name that stays, with members that do. -/
structure TraitItem.Steady (still : Prop) (σ : Equiv.Perm String) (contract : TraitItem) : Prop where
  name : σ contract.name = contract.name
  members : ∀ member ∈ contract.members, member.Steady still σ

namespace Tree.Steady

theorem asTrait? {item : Tree} (steady : item.Steady still σ) {contract : TraitItem} (found : item.asTrait? = some contract) :
    contract.Steady still σ := by
  obtain ⟨_, _, _, _, _, name, _, _, _, _, _, rfl, rfl⟩ := Tree.trait_shape found
  have body := steady.child (List.mem_append_right [_, _, _, _, _, _, _, _, _] List.mem_cons_self)
  exact ⟨steady.own_name rfl, fun member inside => body.child (List.mem_cons_of_mem _ inside)⟩

theorem asModule? {item : Tree} (steady : item.Steady still σ) {name : String} {content : List Tree}
    (found : item.asModule? = some ⟨name, some content⟩) :
    σ name = name ∧ ∀ inside ∈ content, inside.Steady still σ := by
  obtain ⟨attributes, visibility, unsafety, word, inner, rfl⟩ := Tree.inline_module_shape found
  have body := steady.child (List.mem_append_right [_, _, _, _, _] List.mem_cons_self)
  exact ⟨steady.own_name rfl, fun inside member => body.child (List.mem_cons_of_mem _ member)⟩

theorem declaredType? {item : Tree} (steady : item.Steady still σ) {name : String} {type : Tree}
    (found : item.declaredType? = some (name, some type)) (stays : still) : type.rename σ = type := by
  unfold Tree.declaredType? at found
  split at found
  all_goals cases found
  exact steady.own_quotes stays _ List.mem_cons_self

theorem moduleName? {item : Tree} (steady : item.Steady still σ) {name : String} (found : item.moduleName? = some name) :
    σ name = name := by
  unfold Tree.moduleName? at found
  split at found
  · cases found
    exact steady.own_name rfl
  · cases found

theorem asFunction? {item : Tree} (steady : item.Steady still σ) (blank : σ "" = "") {function : Function}
    (found : item.asFunction? = some function) :
    σ function.name = function.name ∧ function.body.Steady still σ := by
  obtain ⟨outer, visibility, signature, body, rfl, rfl⟩ := Tree.function_shape found
  exact ⟨(steady.child (by simp)).signatureName blank, steady.child (by simp)⟩

end Tree.Steady

theorem TraitItem.Steady.method {contract : TraitItem} (steady : contract.Steady still σ) {signature : Tree}
    (own : signature ∈ Contract.methods contract) :
    signature.Steady still σ ∧ (still → ∀ type, signature.resultType? = some type → type.rename σ = type) := by
  obtain ⟨member, inside, found⟩ := List.mem_filterMap.mp own
  have steady := steady.members member inside
  obtain ⟨attributes, body, rfl⟩ := Tree.methodSignature?_shape found
  exact ⟨steady.child (by simp), fun stays type result => steady.own_quotes stays type (Option.mem_toList.mpr result)⟩

theorem Inline.steady {items content : List Tree} {path : ModulePath} (reached : Inline items path content)
    (steady : ∀ item ∈ items, item.Steady still σ) :
    path.map σ = path ∧ ∀ item ∈ content, item.Steady still σ := by
  induction reached with
  | here items => exact ⟨rfl, steady⟩
  | inner member module _ ih =>
      obtain ⟨own, inside⟩ := (steady _ member).asModule? module
      obtain ⟨below, content⟩ := ih inside
      exact ⟨by rw [List.map_cons, own, below], content⟩

end TestDouble
