import TestDouble.Proofs.Renaming.Canonical
import TestDouble.Proofs.Renaming.Site
import TestDouble.Proofs.Renaming.Steady
import TestDouble.Proofs.Site.Binding
/-!
# Renaming and binding

Under renamed settings the creation sites of a renamed module are bound to the same keys, and the configurations
are taken away: what is left is the bound module, renamed, with the same sites reported.
-/

namespace TestDouble

variable {still : Prop} {σ : Equiv.Perm String}

namespace Tree

theorem isConfiguration_rename (settings : Settings) (tree : Tree) :
    Binder.isConfiguration (settings.rename σ) (tree.rename σ) = Binder.isConfiguration settings tree := by
  rw [Binder.isConfiguration, Binder.isConfiguration, asMethodCall?_rename]
  cases tree.asMethodCall? with
  | none => rfl
  | some call =>
      simp only [Option.map_some, Settings.configuredMethod?_rename, Option.isSome_map]

/-- The signature of a method in an implementation. -/
def methodOfImpl? : Tree → Option Tree
  | .node .implFn [_, _, _, signature, _] => some signature
  | _ => none

theorem methodOfImpl?_rename (item : Tree) : (item.rename σ).methodOfImpl? = item.methodOfImpl?.map (rename σ) := by
  refine view_rename σ rename (fun σ item found holds => ?_) item
  unfold methodOfImpl? at holds
  split at holds
  · cases holds
    simp [methodOfImpl?]
  · cases holds

theorem moduleName?_rename (item : Tree) : (item.rename σ).moduleName? = item.moduleName?.map σ := by
  refine view_rename σ (fun name => name) (fun σ item found holds => ?_) item
  unfold moduleName? at holds
  split at holds
  · cases holds
    simp [moduleName?, Token.rename]
  · cases holds

/-- The parts of the path that a call calls. -/
def calledParts? : Tree → Option (List Tree)
  | .node .call [_, .node .pathExpr [_, .node .path children], _] => some children
  | _ => none

theorem calledParts?_rename (tree : Tree) : (tree.rename σ).calledParts? = tree.calledParts?.map (List.map (rename σ)) := by
  refine view_rename σ (fun name => List.map (rename name)) (fun σ tree found holds => ?_) tree
  unfold calledParts? at holds
  split at holds
  · cases holds
    simp [calledParts?]
  · cases holds

end Tree

namespace Place

theorem inside_eq (root : String) (place : Place) (node : Tree) :
    place.inside root node =
      match node.moduleName? with
      | some name => { place with module := place.module ++ [name] }
      | none =>
        match node.asFunction? with
        | some function =>
          { place with function := some (Name.key root place.module function.name, Catalog.isTest function) }
        | none =>
          match node.methodOfImpl? with
          | some signature =>
            { place with function := some (Name.key root place.module signature.signatureName, false) }
          | none => place := by
  unfold inside
  split
  · rfl
  · rename_i children
    cases (Tree.node .itemFn children).asFunction? with
    | some function => rfl
    | none => rfl
  · rfl
  · rename_i noModule noFunction noMethod
    have module : node.moduleName? = none := by
      unfold Tree.moduleName?
      split
      · exact absurd rfl (noModule _ _ _ _ _ _)
      · rfl
    have function : node.asFunction? = none := by
      unfold Tree.asFunction?
      split
      · exact absurd rfl (noFunction _)
      · rfl
    have method : node.methodOfImpl? = none := by
      unfold Tree.methodOfImpl?
      split
      · exact absurd rfl (noMethod _ _ _ _ _)
      · rfl
    rw [module, function, method]

/-- Places are the same inside a steady node, for they are known by names that stay. -/
theorem inside_rename (keeps : Keeps σ) {root : String} (place : Place) {node : Tree} (steady : node.Steady still σ) :
    place.inside root (node.rename σ) = place.inside root node := by
  rw [inside_eq, inside_eq, Tree.moduleName?_rename, Tree.asFunction?_rename, Tree.methodOfImpl?_rename]
  cases module : node.moduleName? with
  | some name => simp only [Option.map_some, steady.moduleName? module]
  | none =>
      cases found : node.asFunction? with
      | some function =>
          have name : (function.rename σ).name = function.name := by
            rw [Function.name, Function.rename, Tree.signatureName_rename σ keeps.blank]
            exact (steady.asFunction? keeps.blank found).1
          simp only [Option.map_none, Option.map_some, name, Catalog.isTest_rename keeps]
      | none =>
          cases method : node.methodOfImpl? with
          | none => rfl
          | some signature =>
              have name : (signature.rename σ).signatureName = signature.signatureName := by
                unfold Tree.methodOfImpl? at method
                split at method
                · cases method
                  rw [Tree.signatureName_rename σ keeps.blank]
                  exact (steady.child (by simp)).signatureName keeps.blank
                · cases method
              simp only [Option.map_none, Option.map_some, name]

end Place

namespace Binder

variable {binder : Binder}

def rename (name : String → String) (binder : Binder) : Binder :=
  { binder with settings := binder.settings.rename name }

def Bound.rename (name : String → String) (bound : Bound) : Bound := (bound.1.rename name, bound.2)

theorem callee_rename (keeps : Keeps σ) (place : Place) (last : Tree) :
    (binder.rename σ).callee place (last.rename σ) = (binder.callee place last).rename σ := by
  have root : (Name.toRoot place.module.length).map σ = Name.toRoot place.module.length := by
    rw [Name.toRoot]
    split
    · exact congrArg (· :: []) (keeps "self" (by simp [reservedWords]))
    · rw [List.map_replicate, keeps "super" (by simp [reservedWords])]
  have aggregate : σ Name.aggregate = Name.aggregate := keeps _ (by simp [reservedWords])
  have names : Name.toRoot place.module.length ++ [Name.aggregate, (binder.rename σ).settings.dispatcher] =
      (Name.toRoot place.module.length ++ [Name.aggregate, binder.settings.dispatcher]).map σ := by
    rw [List.map_append, root, List.map_cons, List.map_singleton, aggregate]
    rfl
  simp only [callee, names, Tree.rename_node, List.map_cons, List.map_nil, Tree.rename_absent, Tree.map_intersperse,
    Tree.rename_punct, List.map_append, List.map_map, Function.comp_def, Tree.rename_ident]

theorem boundCall_rename (keeps : Keeps σ) (place : Place) (key : String) (attributes last : Tree) :
    (binder.rename σ).boundCall place key (attributes.rename σ) (last.rename σ) =
      (binder.boundCall place key attributes last).rename σ := by
  simp [boundCall, callee_rename keeps, Token.rename]

theorem invocationArguments_rename (blank : σ "_" = "_") (children bound : List Tree) :
    invocationArguments (children.map (Tree.rename σ)) (bound.map (Tree.rename σ)) =
      (invocationArguments children bound).rename σ := by
  have canonical : ∀ trees : List Tree, Tree.canonicalAll (trees.map (Tree.rename σ)) =
      (Tree.canonicalAll trees).map (Tree.rename σ) := by
    intro trees
    rw [Tree.canonicalAll, Tree.canonicalAll, List.map_map, List.map_map]
    exact List.map_congr_left fun tree _ => Tree.canonical_rename σ blank tree
  have tokens : ∀ trees : List Tree, Tree.tokensAll (trees.map (Tree.rename σ)) =
      (Tree.tokensAll trees).map (Token.rename σ) := by
    intro trees
    rw [Tree.tokensAll_eq_flatMap, Tree.tokensAll_eq_flatMap, List.flatMap_map, List.map_flatMap]
    exact List.flatMap_congr fun tree _ => Tree.tokens_rename σ tree
  have injective : Function.Injective (Token.rename σ) :=
    Function.LeftInverse.injective (g := Token.rename σ.symm) fun token => by cases token <;> simp [Token.rename]
  simp only [invocationArguments, canonical, tokens, (List.map_injective_iff.mpr injective).eq_iff]
  split <;> simp

theorem assemble_rename (keeps : Keeps σ) (place : Place) (kind : Kind) (children : List Tree) (bound : List Bound)
    (last : Option Bound) :
    (binder.rename σ).assemble place kind (children.map (Tree.rename σ)) (bound.map (Bound.rename σ))
        (last.map (Bound.rename σ)) =
      Bound.rename σ (binder.assemble place kind children bound last) := by
  have trees : (bound.map (Bound.rename σ)).map (·.1) = (bound.map (·.1)).map (Tree.rename σ) := by
    rw [List.map_map, List.map_map]
    rfl
  have problems : (bound.map (Bound.rename σ)).flatMap (·.2) = bound.flatMap (·.2) := by
    rw [List.flatMap_map]
    rfl
  have plain : (Tree.node kind ((bound.map (Bound.rename σ)).map (·.1)), (bound.map (Bound.rename σ)).flatMap (·.2)) =
      Bound.rename σ (Tree.node kind (bound.map (·.1)), bound.flatMap (·.2)) := by
    rw [trees, problems, Bound.rename, Tree.rename_node]
  unfold assemble
  split
  · simp only [trees, problems, Tree.children, invocationArguments_rename (keeps "_" (by simp [reservedWords]))]
    rfl
  · have configuration := @Tree.isConfiguration_rename σ binder.settings (.node .methodCall children)
    rw [Tree.rename_node] at configuration
    simp only [rename, configuration]
    split
    · simp [Bound.rename, unit]
    · exact plain
  · have marker : ((Tree.node .call (children.map (Tree.rename σ))).asCall?.map (binder.settings.rename σ).isMarker).getD
        false = ((Tree.node .call children).asCall?.map binder.settings.isMarker).getD false := by
      rw [← Tree.rename_node, Tree.asCall?_rename, Option.map_map]
      refine congrArg (fun marks => ((Tree.node .call children).asCall?.map marks).getD false) (funext fun call => ?_)
      exact Settings.isMarker_rename keeps binder.settings call
    have key : place.key (binder.rename σ).root = place.key binder.root := rfl
    simp only [rename, marker]
    split
    · rcases place.function with _ | ⟨key, _ | _⟩
      · exact congrArg₂ Prod.mk (congrArg Prod.fst plain) (congrArg (List.cons _) (congrArg Prod.snd plain))
      · exact congrArg₂ Prod.mk (congrArg Prod.fst plain) (congrArg (List.cons _) (congrArg Prod.snd plain))
      · cases bound with
        | nil => exact plain
        | cons attributes more =>
            cases last with
            | none => exact plain
            | some last =>
                simp only [List.map_cons, Option.map_some]
                split
                · exact congrArg (Prod.mk · _) (boundCall_rename keeps place key attributes.1 last.1)
                · exact plain
    · exact plain
  · exact plain

theorem bindLast_called (place : Place) (children : List Tree) :
    binder.bindLast place children =
      (Tree.node .call children).calledParts?.bind fun parts =>
        ((parts.map (binder.bind place)).filter fun bound => bound.1.kind? == some .segment).getLast? := by
  unfold bindLast
  split
  · rw [bindAll_eq_map]
    rfl
  · rename_i other
    have none : (Tree.node .call children).calledParts? = none := by
      unfold Tree.calledParts?
      split
      · rename_i same
        cases same
        exact absurd rfl (other _ _ _ _)
      · rfl
    rw [none]
    rfl

theorem calledParts_shape {children parts : List Tree} (called : (Tree.node .call children).calledParts? = some parts) :
    ∃ attributes own arguments,
      children = [attributes, .node .pathExpr [own, .node .path parts], arguments] := by
  unfold Tree.calledParts? at called
  split at called
  · rename_i same
    cases same
    cases called
    exact ⟨_, _, _, rfl⟩
  · cases called

/-- Binding a renamed tree renames what is bound, and reports the same sites. -/
theorem bind_rename (keeps : Keeps σ) (place : Place) {tree : Tree} (steady : tree.Steady still σ) :
    (binder.rename σ).bind place (tree.rename σ) = Bound.rename σ (binder.bind place tree) := by
  -- the last segment of a called path is reached through three nodes at once
  induction bound : tree.size using Nat.strongRecOn generalizing place tree with
  | ind size ih =>
      cases tree with
      | token t => rfl
      | node kind children =>
          have inside := @Place.inside_rename still σ keeps binder.root place _ steady
          rw [Tree.rename_node] at inside ⊢
          have below : ∀ inner : Place, (children.map (Tree.rename σ)).map ((binder.rename σ).bind inner) =
              (children.map (binder.bind inner)).map (Bound.rename σ) := by
            intro inner
            rw [List.map_map, List.map_map]
            refine List.map_congr_left fun child member => ?_
            exact ih child.size (bound ▸ Tree.size_child member) inner (steady.child member) rfl
          have last : ∀ inner : Place, (binder.rename σ).bindLast inner (children.map (Tree.rename σ)) =
              (binder.bindLast inner children).map (Bound.rename σ) := by
            intro inner
            rw [bindLast_called, bindLast_called, ← Tree.rename_node, Tree.calledParts?_rename]
            cases called : (Tree.node .call children).calledParts? with
            | none => rfl
            | some parts =>
                obtain ⟨attributes, own, arguments, rfl⟩ := calledParts_shape called
                have callee : (Tree.node .pathExpr [own, .node .path parts]).Steady still σ := steady.child (by simp)
                have path : (Tree.node .path parts).Steady still σ := callee.child (by simp)
                have each : ∀ part ∈ parts, (binder.rename σ).bind inner (part.rename σ) =
                    Bound.rename σ (binder.bind inner part) := by
                  intro part member
                  refine ih part.size (bound ▸ ?_) inner (path.child member) rfl
                  calc part.size
                    _ < (Tree.node .path parts).size := Tree.size_child member
                    _ < (Tree.node .pathExpr [own, .node .path parts]).size := Tree.size_child (by simp)
                    _ < _ := Tree.size_child (by simp)
                have all : (parts.map (Tree.rename σ)).map ((binder.rename σ).bind inner) =
                    (parts.map (binder.bind inner)).map (Bound.rename σ) := by
                  rw [List.map_map, List.map_map]
                  exact List.map_congr_left each
                have segment : (fun own : Bound => own.1.kind? == some .segment) ∘ Bound.rename σ =
                    fun own => own.1.kind? == some .segment :=
                  funext fun own => congrArg (· == some Kind.segment) (Tree.kind?_rename σ own.1)
                simp only [Option.map_some, Option.bind_some]
                rw [all, List.filter_map, segment, List.getLast?_map]
          have assembled := @assemble_rename σ binder keeps place kind children
            (children.map (binder.bind (place.inside binder.root (.node kind children))))
            (binder.bindLast (place.inside binder.root (.node kind children)) children)
          have root : (binder.rename σ).root = binder.root := rfl
          rw [bind, bind, bindAll_eq_map, bindAll_eq_map, root, inside, below, last]
          exact assembled

end Binder

/-- Binding a renamed module under renamed settings renames what is bound, and reports the same sites. -/
theorem bindSites_rename (keeps : Keeps σ) (settings : Settings) (keys : List String) {module : Tree}
    (steady : module.Steady still σ) {name : String} {items : List Tree}
    (inline : module.asModule? = some ⟨name, some items⟩) :
    bindSites (settings.rename σ) keys (module.rename σ) =
      Binder.Bound.rename σ (bindSites settings keys module) := by
  obtain ⟨own, inside⟩ := steady.asModule? inline
  obtain ⟨attributes, visibility, unsafety, word, inner, rfl⟩ := Tree.inline_module_shape inline
  have below : (items.map (Tree.rename σ)).map (Binder.bind ⟨settings.rename σ, name, keys⟩ ⟨[], none⟩) =
      (items.map (Binder.bind ⟨settings, name, keys⟩ ⟨[], none⟩)).map (Binder.Bound.rename σ) := by
    rw [List.map_map, List.map_map]
    refine List.map_congr_left fun item member => ?_
    exact @Binder.bind_rename still σ ⟨settings, name, keys⟩ keeps ⟨[], none⟩ item (inside item member)
  have trees : ∀ bound : List Binder.Bound, (bound.map (Binder.Bound.rename σ)).map (·.1) =
      (bound.map (·.1)).map (Tree.rename σ) := by
    intro bound
    rw [List.map_map, List.map_map]
    rfl
  simp only [bindSites, Tree.rename_node, List.map_cons, List.map_nil, own, Tree.ident, Tree.group,
    Binder.bindAll_eq_map, below, trees, List.flatMap_map, Binder.Bound.rename, Tree.rename_token, Token.rename]

end TestDouble
