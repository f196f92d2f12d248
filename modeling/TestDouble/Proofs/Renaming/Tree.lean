import Mathlib.Data.List.Basic
import Mathlib.Logic.Equiv.Basic
import TestDouble.Proofs.Source.Children
import TestDouble.Source.View
/-!
# Renaming identifiers

A renaming replaces identifiers wherever they stand as tokens. One that can be undone changes no shape, so
every view of a renamed tree is the view of the tree, renamed.
-/

namespace TestDouble

/--
A function commutes with renamings that can be undone if it does so wherever it looks into its argument, given
that it does so for smaller ones, and elsewhere treats all arguments alike.
-/
theorem commutes_of_smaller {α β : Type} (size : α → Nat) (here : (String → String) → α → α)
    (there : (String → String) → β → β) (view plain : α → β)
    (kept : ∀ (σ : Equiv.Perm String) argument, size (here σ argument) = size argument)
    (back : ∀ (σ : Equiv.Perm String) argument, here σ.symm (here σ argument) = argument)
    (forth : ∀ (σ : Equiv.Perm String) value, there σ.symm (there σ value) = value)
    (alike : ∀ (σ : Equiv.Perm String) argument, plain (here σ argument) = there σ (plain argument))
    {words : List String}
    (forward : ∀ argument, (∀ smaller, size smaller < size argument → ∀ σ : Equiv.Perm String,
        (∀ word ∈ words, σ word = word) → view (here σ smaller) = there σ (view smaller)) →
      ∀ σ : Equiv.Perm String, (∀ word ∈ words, σ word = word) →
        view argument = plain argument ∨ view (here σ argument) = there σ (view argument))
    {σ : Equiv.Perm String} (fixed : ∀ word ∈ words, σ word = word) (argument : α) :
    view (here σ argument) = there σ (view argument) := by
  induction bound : size argument using Nat.strongRecOn generalizing σ argument with
  | ind bound' ih =>
      have smaller : ∀ other, size other < size argument → ∀ σ : Equiv.Perm String,
          (∀ word ∈ words, σ word = word) → view (here σ other) = there σ (view other) :=
        fun other less σ fixed => ih _ (bound ▸ less) fixed other rfl
      have still : ∀ word ∈ words, σ.symm word = word :=
        fun word member => (Equiv.symm_apply_eq σ).mpr (fixed word member).symm
      rcases forward argument smaller σ fixed with same | along
      · rcases forward (here σ argument) ((kept σ argument).symm ▸ smaller) σ.symm still with same' | undone
        · rw [same, same', alike]
        · rw [back] at undone
          rw [undone]
          exact (forth σ.symm _).symm
      · exact along

/-- A function that looks into no smaller arguments commutes with renamings if it does so wherever it looks at all. -/
theorem commutes_of_forward {α β : Type} (here : (String → String) → α → α) (there : (String → String) → β → β)
    (view plain : α → β)
    (back : ∀ (σ : Equiv.Perm String) argument, here σ.symm (here σ argument) = argument)
    (forth : ∀ (σ : Equiv.Perm String) value, there σ.symm (there σ value) = value)
    (alike : ∀ (σ : Equiv.Perm String) argument, plain (here σ argument) = there σ (plain argument))
    {words : List String}
    (forward : ∀ σ : Equiv.Perm String, (∀ word ∈ words, σ word = word) → ∀ argument,
      view argument = plain argument ∨ view (here σ argument) = there σ (view argument))
    {σ : Equiv.Perm String} (fixed : ∀ word ∈ words, σ word = word) (argument : α) :
    view (here σ argument) = there σ (view argument) :=
  commutes_of_smaller (fun _ => 0) here there view plain (fun _ _ => rfl) back forth alike
    (fun argument _ σ fixed => forward σ fixed argument) fixed argument

def Token.rename (name : String → String) : Token → Token
  | .ident own => .ident (name own)
  | other => other

namespace Tree

mutual

/-- The tree with every identifier replaced. -/
def rename (name : String → String) : Tree → Tree
  | .token t => .token (t.rename name)
  | .node kind children => .node kind (renameAll name children)

def renameAll (name : String → String) : List Tree → List Tree
  | [] => []
  | tree :: rest => rename name tree :: renameAll name rest

end

theorem renameAll_eq_map (name : String → String) (trees : List Tree) :
    renameAll name trees = trees.map (rename name) := by
  induction trees with
  | nil => rfl
  | cons first rest ih => rw [renameAll, ih, List.map_cons]

section
variable (name : String → String)

@[simp] theorem rename_token (t : Token) : (token t).rename name = token (t.rename name) := rfl

@[simp] theorem rename_node (kind : Kind) (children : List Tree) :
    (node kind children).rename name = node kind (children.map (rename name)) := by
  rw [rename, renameAll_eq_map]

@[simp] theorem rename_ident (own : String) : (ident own).rename name = ident (name own) := rfl

@[simp] theorem rename_punct (text : String) : (punct text).rename name = punct text := rfl

@[simp] theorem rename_absent : absent.rename name = absent := rfl

@[simp] theorem rename_group (delimiter : Delimiter) (children : List Tree) :
    (group delimiter children).rename name = group delimiter (children.map (rename name)) :=
  rename_node name _ children

@[simp] theorem kind?_rename (tree : Tree) : (tree.rename name).kind? = tree.kind? := by
  cases tree with
  | token t => rfl
  | node kind children => rw [rename_node, kind?, kind?]

@[simp] theorem isPunct_rename (text : String) (tree : Tree) : (tree.rename name).isPunct text = tree.isPunct text := by
  cases tree with
  | token t => cases t <;> rfl
  | node kind children => rfl

end

theorem rename_rename (first second : String → String) (tree : Tree) :
    (tree.rename first).rename second = tree.rename (second ∘ first) := by
  induction tree using byChildren with
  | token t => cases t <;> rfl
  | node kind children ih =>
      rw [rename_node, rename_node, rename_node, List.map_map]
      exact congrArg (node kind) (List.map_congr_left ih)

theorem tokens_rename (name : String → String) (tree : Tree) :
    (tree.rename name).tokens = tree.tokens.map (Token.rename name) := by
  induction tree using byChildren with
  | token t => rfl
  | node kind children ih =>
      have below : tokensAll (children.map (rename name)) = (tokensAll children).map (Token.rename name) := by
        rw [tokensAll_eq_flatMap, tokensAll_eq_flatMap, List.flatMap_map, List.map_flatMap]
        exact List.flatMap_congr ih
      rw [rename_node]
      by_cases grouped : ∃ delimiter, kind = .group delimiter
      · obtain ⟨delimiter, rfl⟩ := grouped
        rw [tokens, tokens, below, List.map_cons, List.map_append]
        rfl
      · have other : ∀ delimiter, kind ≠ .group delimiter := fun delimiter same => grouped ⟨delimiter, same⟩
        rw [tokens_node other, tokens_node other, below]

theorem ident_mem_tokens {kind : Kind} {children : List Tree} {child : Tree} (member : child ∈ children) {own : String}
    (inside : Token.ident own ∈ child.tokens) : Token.ident own ∈ (node kind children).tokens := by
  have below : Token.ident own ∈ tokensAll children := by
    rw [tokensAll_eq_flatMap]
    exact List.mem_flatMap.mpr ⟨child, member, inside⟩
  by_cases grouped : ∃ delimiter, kind = .group delimiter
  · obtain ⟨delimiter, rfl⟩ := grouped
    exact List.mem_cons_of_mem _ (List.mem_append_left _ below)
  · rw [tokens_node fun delimiter same => grouped ⟨delimiter, same⟩]
    exact below

/-- A tree is renamed alike by what agrees on its identifiers. -/
theorem rename_congr {first second : String → String} {tree : Tree}
    (same : ∀ own, Token.ident own ∈ tree.tokens → first own = second own) :
    tree.rename first = tree.rename second := by
  induction tree using byChildren with
  | token t =>
      cases t with
      | ident own => exact congrArg (fun own => Tree.token (.ident own)) (same own List.mem_cons_self)
      | _ => rfl
  | node kind children ih =>
      rw [rename_node, rename_node]
      refine congrArg (node kind) (List.map_congr_left fun child member => ih child member fun own inside => ?_)
      exact same own (ident_mem_tokens member inside)

theorem rename_id (tree : Tree) : tree.rename id = tree := by
  induction tree using byChildren with
  | token t => cases t <;> rfl
  | node kind children ih =>
      rw [rename_node]
      exact congrArg (node kind) ((List.map_congr_left ih).trans (List.map_id' children))

/-- What a renaming leaves alone, it leaves alone inside. -/
theorem rename_part {name : String → String} {tree part : Tree} (same : tree.rename name = tree)
    (inside : part ∈ tree.subtrees) : part.rename name = part := by
  refine inherited (motive := fun part => part.rename name = part) (fun own member => ?_) same inside
  rw [rename_node, node.injEq] at own
  exact List.map_inj_left.mp (own.2.trans (List.map_id' _).symm) _ member

variable (σ : Equiv.Perm String)

@[simp] theorem rename_symm (tree : Tree) : (tree.rename σ).rename σ.symm = tree := by
  have undone : ⇑σ.symm ∘ ⇑σ = id := funext σ.symm_apply_apply
  rw [rename_rename, undone, rename_id]

/-- What a view finds in a tree, renamed, it finds in the renamed tree; then it finds nothing more there. -/
theorem view_rename {α : Type} {view : Tree → Option α} (renamed : (String → String) → α → α)
    (forward : ∀ (σ : Equiv.Perm String) tree found, view tree = some found →
      view (tree.rename σ) = some (renamed σ found)) (tree : Tree) :
    view (tree.rename σ) = (view tree).map (renamed σ) := by
  cases found : view tree with
  | some value => exact forward σ tree value found
  | none =>
      cases other : view (tree.rename σ) with
      | none => rfl
      | some value =>
          have back := forward σ.symm _ value other
          rw [rename_symm, found] at back
          cases back

theorem list_rename {view : Tree → List Tree}
    (forward : ∀ (σ : Equiv.Perm String) tree, view tree ≠ [] → view (tree.rename σ) = (view tree).map (rename σ))
    (tree : Tree) : view (tree.rename σ) = (view tree).map (rename σ) := by
  by_cases empty : view tree = []
  · rw [empty, List.map_nil]
    by_contra some
    have back := forward σ.symm _ some
    rw [rename_symm, empty] at back
    exact some (List.map_eq_nil_iff.mp back.symm)
  · exact forward σ tree empty

theorem filter_rename {kept : Tree → Bool} (same : ∀ part : Tree, kept (part.rename σ) = kept part) (parts : List Tree) :
    (parts.map (rename σ)).filter kept = (parts.filter kept).map (rename σ) := by
  rw [List.filter_map]
  exact congrArg (List.map _) (List.filter_congr fun part _ => same part)

theorem bool_rename {view : Tree → Bool}
    (forward : ∀ (σ : Equiv.Perm String) tree, view tree = true → view (tree.rename σ) = true) (tree : Tree) :
    view (tree.rename σ) = view tree := by
  rw [Bool.eq_iff_iff]
  constructor
  · intro holds
    have back := forward σ.symm _ holds
    rwa [rename_symm] at back
  · exact forward σ tree

@[simp] theorem isAbsent_rename (tree : Tree) : (tree.rename σ).isAbsent = tree.isAbsent := by
  refine bool_rename σ (fun σ tree holds => ?_) tree
  unfold isAbsent at holds
  split at holds
  · rw [rename_node]
    rfl
  · cases holds

/-! ### Paths -/

theorem segments_rename (tree : Tree) : (tree.rename σ).segments = tree.segments.map (rename σ) := by
  refine list_rename σ (fun σ tree holds => ?_) tree
  unfold segments at holds ⊢
  split at holds
  · rw [rename_node]
    exact filter_rename σ (fun part => by rw [kind?_rename]) _
  · exact absurd rfl holds

/-- The identifier that a segment begins with. -/
def segmentName? : Tree → Option String
  | .node .segment (.token (.ident name) :: _) => some name
  | _ => none

theorem segmentName?_rename (tree : Tree) : (tree.rename σ).segmentName? = tree.segmentName?.map σ := by
  refine view_rename σ (fun name => name) (fun σ tree found holds => ?_) tree
  unfold segmentName? at holds
  split at holds
  · cases holds
    rw [rename_node]
    rfl
  · cases holds

theorem segmentName_eq (segment : Tree) : segment.segmentName = segment.segmentName?.getD "" := by
  cases found : segment.segmentName? with
  | some name =>
      unfold segmentName? at found
      split at found
      · cases found
        rfl
      · cases found
  | none =>
      unfold segmentName
      split
      · cases found
      · rfl

theorem segmentName_rename (blank : σ "" = "") (segment : Tree) :
    (segment.rename σ).segmentName = σ segment.segmentName := by
  rw [segmentName_eq, segmentName_eq, segmentName?_rename]
  cases segment.segmentName? with
  | none => exact blank.symm
  | some name => rfl

theorem hasArguments_rename (segment : Tree) : (segment.rename σ).hasArguments = segment.hasArguments := by
  refine bool_rename σ (fun σ tree holds => ?_) segment
  unfold hasArguments at holds
  split at holds
  · rw [rename_node]
    rfl
  · cases holds

theorem isRootPath_rename (path : Tree) : (path.rename σ).isRootPath = path.isRootPath := by
  refine bool_rename σ (fun σ tree holds => ?_) path
  unfold isRootPath at holds
  split at holds
  · rw [rename_node, List.map_cons, isRootPath, isPunct_rename]
    exact holds
  · cases holds

theorem asPath?_rename (tree : Tree) : (tree.rename σ).asPath? = tree.asPath?.map (rename σ) := by
  refine view_rename σ rename (fun σ tree found holds => ?_) tree
  unfold asPath? at holds
  split at holds
  · cases holds
    simp [asPath?]
  · cases holds
    simp [asPath?]
  · cases holds

/-! ### Attributes and bodies -/

theorem innerAttributes_rename (body : Tree) : (body.rename σ).innerAttributes = body.innerAttributes.map (rename σ) := by
  refine list_rename σ (fun σ tree holds => ?_) body
  unfold innerAttributes at holds
  split at holds
  · simp [innerAttributes]
  · exact absurd rfl holds

theorem statements_rename (body : Tree) : (body.rename σ).statements = body.statements.map (rename σ) := by
  refine list_rename σ (fun σ tree holds => ?_) body
  unfold statements at holds
  split at holds
  · simp [statements]
  · exact absurd rfl holds

theorem attributePath?_rename (mark : Tree) :
    (mark.rename σ).attributePath? = mark.attributePath?.map (rename σ) := by
  refine view_rename σ rename (fun σ tree found holds => ?_) mark
  unfold attributePath? at holds
  split at holds
  · cases holds
    simp [attributePath?]
  · cases holds

theorem elements_rename (group : Tree) : (group.rename σ).elements = group.elements.map (rename σ) := by
  refine list_rename σ (fun σ tree holds => ?_) group
  unfold elements at holds ⊢
  split at holds
  · rw [rename_node]
    exact filter_rename σ (fun part => by rw [isPunct_rename]) _
  · exact absurd rfl holds

end Tree

/-! ### Calls -/

def Call.rename (name : String → String) (call : Call) : Call :=
  ⟨call.attributes.rename name, call.callee.rename name, call.arguments.rename name⟩

def MethodCall.rename (own : String → String) (call : MethodCall) : MethodCall :=
  ⟨call.receiver.rename own, own call.name, call.arguments.rename own⟩

/-! ### Items -/

def Signature.rename (own : String → String) (view : Signature) : Signature where
  constness := view.constness.rename own
  asyncness := view.asyncness.rename own
  unsafety := view.unsafety.rename own
  name := own view.name
  generics := view.generics.rename own
  inputs := view.inputs.rename own
  output := view.output.rename own

def Function.rename (name : String → String) (function : Function) : Function :=
  ⟨function.attributes.map (Tree.rename name), function.signature.rename name, function.body.rename name⟩

def TraitItem.rename (own : String → String) (contract : TraitItem) : TraitItem where
  isUnsafe := contract.isUnsafe
  name := own contract.name
  parameters := contract.parameters.map (Tree.rename own)
  supertraits := contract.supertraits.map (Tree.rename own)
  members := contract.members.map (Tree.rename own)

def ModuleItem.rename (own : String → String) (module : ModuleItem) : ModuleItem :=
  ⟨own module.name, module.items.map (List.map (Tree.rename own))⟩

namespace Tree

variable (σ : Equiv.Perm String)

theorem asCall?_rename (tree : Tree) : (tree.rename σ).asCall? = tree.asCall?.map (Call.rename σ) := by
  refine view_rename σ Call.rename (fun σ tree found holds => ?_) tree
  unfold asCall? at holds
  split at holds
  · cases holds
    simp [asCall?, Call.rename]
  · cases holds

theorem asMethodCall?_rename (tree : Tree) :
    (tree.rename σ).asMethodCall? = tree.asMethodCall?.map (MethodCall.rename σ) := by
  refine view_rename σ MethodCall.rename (fun σ tree found holds => ?_) tree
  unfold asMethodCall? at holds
  split at holds
  · cases holds
    simp [asMethodCall?, MethodCall.rename, Token.rename]
  · cases holds

theorem asSignature?_rename (tree : Tree) : (tree.rename σ).asSignature? = tree.asSignature?.map (Signature.rename σ) := by
  refine view_rename σ Signature.rename (fun σ tree found holds => ?_) tree
  unfold asSignature? at holds
  split at holds
  · cases holds
    simp [asSignature?, Signature.rename, Token.rename]
  · cases holds

theorem parameters_rename (generics : Tree) : (generics.rename σ).parameters = generics.parameters.map (rename σ) := by
  refine list_rename σ (fun σ tree holds => ?_) generics
  unfold parameters at holds ⊢
  split at holds
  · rw [rename_node]
    exact filter_rename σ (fun part => by rw [kind?_rename]) _
  · exact absurd rfl holds

theorem boundList_rename (bounds : Tree) : (bounds.rename σ).boundList = bounds.boundList.map (rename σ) := by
  refine list_rename σ (fun σ tree holds => ?_) bounds
  unfold boundList at holds ⊢
  split at holds
  · rw [rename_node, List.map_cons]
    exact filter_rename σ (fun part => by rw [isPunct_rename]) _
  · exact absurd rfl holds

theorem parameterName?_rename (parameter : Tree) :
    (parameter.rename σ).parameterName? = parameter.parameterName?.map σ := by
  refine view_rename σ (fun name => name) (fun σ tree found holds => ?_) parameter
  unfold parameterName? at holds
  split at holds
  · cases holds
    simp [parameterName?, Token.rename]
  · cases holds
    simp [parameterName?, Token.rename]
  · cases holds

theorem asFunction?_rename (item : Tree) : (item.rename σ).asFunction? = item.asFunction?.map (Function.rename σ) := by
  refine view_rename σ Function.rename (fun σ tree found holds => ?_) item
  unfold asFunction? at holds
  split at holds
  · cases holds
    simp [asFunction?, Function.rename, innerAttributes_rename]
  · cases holds

theorem asTrait?_rename (item : Tree) : (item.rename σ).asTrait? = item.asTrait?.map (TraitItem.rename σ) := by
  refine view_rename σ TraitItem.rename (fun σ tree found holds => ?_) item
  unfold asTrait? at holds
  split at holds
  · cases holds
    simp [asTrait?, TraitItem.rename, Token.rename, parameters_rename, boundList_rename]
  · cases holds

theorem methodSignature?_rename (member : Tree) :
    (member.rename σ).methodSignature? = member.methodSignature?.map (rename σ) := by
  refine view_rename σ rename (fun σ tree found holds => ?_) member
  unfold methodSignature? at holds
  split at holds
  · cases holds
    simp [methodSignature?]
  · cases holds

theorem constant?_rename (item : Tree) :
    (item.rename σ).constant? = item.constant?.map fun entry => (σ entry.1, entry.2.rename σ) := by
  refine view_rename σ (fun name (entry : String × Tree) => (name entry.1, entry.2.rename name)) (fun σ tree found holds => ?_) item
  unfold constant? at holds
  split at holds
  · cases holds
    simp [constant?, Token.rename]
  · cases holds

theorem asModule?_rename (item : Tree) : (item.rename σ).asModule? = item.asModule?.map (ModuleItem.rename σ) := by
  refine view_rename σ ModuleItem.rename (fun σ tree found holds => ?_) item
  unfold asModule? at holds
  split at holds
  · cases holds
    simp [asModule?, ModuleItem.rename, Token.rename]
  · rename_i attributes visibility unsafety word name content elsewhere
    cases holds
    have closed : ∀ first rest, content.rename σ ≠ group .brace (first :: rest) := by
      intro first rest same
      have back := rename_symm σ content
      rw [same, rename_group] at back
      exact elsewhere _ _ back.symm
    rw [rename_node]
    simp only [List.map_cons, List.map_nil]
    generalize content.rename σ = renamed at closed
    unfold asModule?
    split
    · rename_i same
      cases same
      exact absurd rfl (closed _ _)
    · rename_i same
      cases same
      rfl
    · rename_i other
      exact absurd rfl (other _ _ _ _ _ _)
  · cases holds

/-- The names of a path are renamed like its segments. -/
theorem names_rename (blank : σ "" = "") (path : Tree) : (path.rename σ).names = path.names.map σ := by
  rw [names, names, segments_rename, List.map_map, List.map_map]
  apply List.map_congr_left
  intro segment _
  exact segmentName_rename σ blank segment

theorem onlyName?_rename (blank : σ "" = "") (path : Tree) : (path.rename σ).onlyName? = path.onlyName?.map σ := by
  unfold onlyName?
  rw [segments_rename, isRootPath_rename]
  cases path.segments with
  | nil => rfl
  | cons segment rest =>
      cases rest with
      | nil =>
          simp only [List.map_cons, List.map_nil, hasArguments_rename, segmentName_rename σ blank]
          split <;> rfl
      | cons second more => rfl

theorem resultType?_rename (signature : Tree) :
    (signature.rename σ).resultType? = signature.resultType?.map (rename σ) := by
  refine view_rename σ rename (fun σ tree found holds => ?_) signature
  unfold resultType? at holds ⊢
  rw [asSignature?_rename]
  split at holds
  · rename_i viewed
    cases holds
    rw [viewed]
    simp [Signature.rename]
  · cases holds

theorem signatureName_rename (blank : σ "" = "") (signature : Tree) :
    (signature.rename σ).signatureName = σ signature.signatureName := by
  rw [signatureName, signatureName, asSignature?_rename]
  cases signature.asSignature? with
  | none => exact blank.symm
  | some view => rfl

end Tree

end TestDouble
