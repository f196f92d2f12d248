import TestDouble.Constant.Scope
import TestDouble.Proofs.Renaming.Catalog
import TestDouble.Site.Basic
/-!
# Renaming and the body of a test

Under renamed settings the search finds in a renamed body what it finds in the body, renamed. The constants in
scope are renamed alike, so an expression keeps its value.
-/

namespace TestDouble

def Settings.rename (name : String → String) (settings : Settings) : Settings :=
  ⟨name settings.dispatcher, name settings.returns⟩

/-- The path that the callee of a creation site is. -/
def Tree.calledPath? : Tree → Option Tree
  | .node .pathExpr [_, .node .path children] => some (.node .path children)
  | _ => none

def Site.rename (name : String → String) : Site → Site
  | .marker call => .marker (call.rename name)
  | .configuration method value => .configuration (name method) (value.map (Tree.rename name))

def Sites.rename (name : String → String) (sites : Sites) : Sites :=
  ⟨sites.found.map (Site.rename name)⟩

variable {σ : Equiv.Perm String}

theorem Tree.calledPath?_rename (callee : Tree) :
    (callee.rename σ).calledPath? = callee.calledPath?.map (Tree.rename σ) := by
  refine view_rename σ rename (fun σ tree found holds => ?_) callee
  unfold calledPath? at holds
  split at holds
  · cases holds
    simp [calledPath?]
  · cases holds

namespace Settings

theorem isMarker_eq (settings : Settings) (call : Call) :
    settings.isMarker call =
      ((call.callee.calledPath?.map fun path => !path.isRootPath && path.names == [settings.dispatcher, "of"]).getD false) := by
  unfold isMarker
  split
  · rename_i same
    rw [same]
    rfl
  · rename_i other
    have none : call.callee.calledPath? = none := by
      unfold Tree.calledPath?
      split
      · rename_i same
        exact absurd same (other _ _)
      · rfl
    rw [none]
    rfl

theorem isMarker_rename (keeps : Keeps σ) (settings : Settings) (call : Call) :
    (settings.rename σ).isMarker (call.rename σ) = settings.isMarker call := by
  rw [isMarker_eq, isMarker_eq, Call.rename, Tree.calledPath?_rename]
  cases call.callee.calledPath? with
  | none => rfl
  | some path =>
      have called : path.names.map σ = [σ settings.dispatcher, "of"] ↔ path.names = [settings.dispatcher, "of"] := by
        conv => lhs; rw [← keeps "of" (by simp [reservedWords])]
        exact (List.map_injective_iff.mpr σ.injective).eq_iff (b := [settings.dispatcher, "of"])
      simp only [Option.map_some, Option.getD_some, Tree.isRootPath_rename, Tree.names_rename σ keeps.blank, rename]
      rw [Bool.eq_iff_iff, Bool.and_eq_true, Bool.and_eq_true, beq_iff_eq, beq_iff_eq, called]

theorem configuredMethod?_rename (settings : Settings) (call : MethodCall) :
    (settings.rename σ).configuredMethod? (call.rename σ) = (settings.configuredMethod? call).map σ := by
  simp only [configuredMethod?, rename, MethodCall.rename, σ.injective.eq_iff, Tree.asMethodCall?_rename]
  split
  · cases call.receiver.asMethodCall? <;> rfl
  · rfl

end Settings

namespace Site

theorem ofNode_rename (keeps : Keeps σ) (settings : Settings) (tree : Tree) :
    ofNode (settings.rename σ) (tree.rename σ) = (ofNode settings tree).map (rename σ) := by
  rw [ofNode, ofNode, Tree.asCall?_rename, Tree.asMethodCall?_rename]
  cases tree.asCall? with
  | some call =>
      simp only [Option.map_some, Settings.isMarker_rename keeps]
      split <;> rfl
  | none =>
      cases tree.asMethodCall? with
      | none => rfl
      | some call =>
          simp only [Option.map_none, Option.map_some, Settings.configuredMethod?_rename]
          cases settings.configuredMethod? call with
          | none => rfl
          | some method => simp [MethodCall.rename, Tree.elements_rename, rename]

theorem ofTree_rename (keeps : Keeps σ) (settings : Settings) (tree : Tree) :
    ofTree (settings.rename σ) (tree.rename σ) = (ofTree settings tree).map (rename σ) := by
  induction tree using Tree.byChildren with
  | token t => rfl
  | node kind children ih =>
      have own := ofNode_rename keeps settings (.node kind children)
      have below : ofTrees (settings.rename σ) (children.map (Tree.rename σ)) = (ofTrees settings children).map (rename σ) := by
        rw [ofTrees_eq_flatMap, ofTrees_eq_flatMap, List.flatMap_map, List.map_flatMap]
        exact List.flatMap_congr ih
      rw [Tree.rename_node] at own ⊢
      rw [ofTree, ofTree, own, below]
      split
      · rfl
      · rw [List.map_append, Option.toList_map]

end Site

namespace Sites

theorem ofBody_rename (keeps : Keeps σ) (settings : Settings) (body : Tree) :
    ofBody (settings.rename σ) (body.rename σ) = (ofBody settings body).rename σ := by
  rw [ofBody, ofBody, rename, Site.ofTrees_eq_flatMap, Site.ofTrees_eq_flatMap, Tree.statements_rename,
    List.flatMap_map, List.map_flatMap]
  exact congrArg Sites.mk (List.flatMap_congr fun statement _ => Site.ofTree_rename keeps settings statement)

theorem markers_rename (sites : Sites) : (sites.rename σ).markers = sites.markers.map (Call.rename σ) := by
  rw [markers, markers, rename, List.filterMap_map, List.map_filterMap]
  exact List.filterMap_congr fun site _ => by cases site <;> rfl

theorem configured?_rename (sites : Sites) (method : String) :
    (sites.rename σ).configured? (σ method) = (sites.configured? method).map (Option.map (Tree.rename σ)) := by
  have entries : (sites.rename σ).configurations =
      sites.configurations.map fun entry => (σ entry.1, entry.2.map (Tree.rename σ)) := by
    rw [configurations, configurations, rename, List.filterMap_map, List.map_filterMap]
    exact List.filterMap_congr fun site _ => by cases site <;> rfl
  rw [configured?, configured?, entries, ← List.map_reverse]
  exact List.lookup_rename σ (Option.map (Tree.rename σ)) _ method

end Sites

/-! ### Constants -/

namespace ConstScope

def rename (name : String → String) (scope : ConstScope) : ConstScope where
  body := scope.body.map fun entry => (name entry.1, entry.2.rename name)
  module := scope.module.map fun entry => (name entry.1, entry.2.rename name)

theorem rename_symm (σ : Equiv.Perm String) (scope : ConstScope) : (scope.rename σ).rename σ.symm = scope := by
  have body := List.map_entries_symm Tree.rename (Tree.rename_symm σ) scope.body
  have module := List.map_entries_symm Tree.rename (Tree.rename_symm σ) scope.module
  simp only [rename, body, module]

theorem declared_rename (tree : Tree) :
    declared (tree.rename σ) = (declared tree).map fun entry => (σ entry.1, entry.2.rename σ) := by
  induction tree using Tree.byChildren with
  | token t => rfl
  | node kind children ih =>
      have own := Tree.constant?_rename σ (.node kind children)
      have below : declaredAll (children.map (Tree.rename σ)) =
          (declaredAll children).map fun entry => (σ entry.1, entry.2.rename σ) := by
        rw [declaredAll_eq_flatMap, declaredAll_eq_flatMap, List.flatMap_map, List.map_flatMap]
        exact List.flatMap_congr ih
      rw [Tree.rename_node] at own ⊢
      by_cases function : kind = .itemFn
      · subst function
        rfl
      by_cases unread : kind = .unread
      · subst unread
        rfl
      by_cases arguments : kind = .arguments
      · subst arguments
        rfl
      · rw [declared, declared, own, below, List.map_append, Option.toList_map] <;> assumption

theorem ofBody_rename (body : Tree) (module : List Tree) :
    ofBody (body.rename σ) (module.map (Tree.rename σ)) = (ofBody body module).rename σ := by
  have items : (module.map (Tree.rename σ)).filterMap Tree.constant? =
      (module.filterMap Tree.constant?).map fun entry => (σ entry.1, entry.2.rename σ) := by
    rw [List.filterMap_map, List.map_filterMap]
    exact List.filterMap_congr fun item _ => Tree.constant?_rename σ item
  have statements : declaredAll (body.statements.map (Tree.rename σ)) =
      (declaredAll body.statements).map fun entry => (σ entry.1, entry.2.rename σ) := by
    rw [declaredAll_eq_flatMap, declaredAll_eq_flatMap, List.flatMap_map, List.map_flatMap]
    exact List.flatMap_congr fun statement _ => declared_rename statement
  rw [ofBody, ofBody, rename, items, Tree.statements_rename, statements]

theorem lookup_rename (scope : ConstScope) (name : String) :
    (scope.rename σ).lookup (σ name) = (scope.lookup name).map (Tree.rename σ) := by
  have last : ∀ entries : List (String × Tree),
      last? (σ name) (entries.map fun entry => (σ entry.1, entry.2.rename σ)) =
        (last? name entries).map (Tree.rename σ) := by
    intro entries
    rw [last?, last?, ← List.map_reverse]
    exact List.lookup_rename σ (Tree.rename σ) _ name
  rw [lookup, lookup, rename, last, last]
  cases last? name scope.body <;> rfl

theorem constantName_rename (keeps : Keeps σ) (path : Tree) : constantName (path.rename σ) = (constantName path).map σ := by
  have here : ∀ first, σ first = "self" ↔ first = "self" := fun first => keeps.eq_iff (by simp [reservedWords])
  rw [constantName, constantName, Tree.names_rename σ keeps.blank]
  cases path.names with
  | nil => rfl
  | cons first rest =>
      cases rest with
      | nil => rfl
      | cons second more =>
          cases more with
          | cons third others => rfl
          | nil =>
              by_cases own : first = "self"
              · subst own
                rw [List.map_cons, (here "self").mpr rfl]
                rfl
              · have other : σ first ≠ "self" := fun same => own ((here first).mp same)
                simp [own, other]

end ConstScope

theorem IntKind.ofName?_rename (keeps : Keeps σ) (name : String) : IntKind.ofName? (σ name) = IntKind.ofName? name :=
  keeps.find? (fun kind _ => by cases kind <;> decide) name

theorem FloatKind.ofName?_rename (keeps : Keeps σ) (name : String) : FloatKind.ofName? (σ name) = FloatKind.ofName? name :=
  keeps.find? (fun kind _ => by cases kind <;> decide) name

theorem Constant.cast_rename (keeps : Keeps σ) (target : String) (value : Constant) :
    value.cast (σ target) = value.cast target := by
  rw [cast, cast, IntKind.ofName?_rename keeps, FloatKind.ofName?_rename keeps]

namespace ConstScope

/-- The value of an expression stays when its names are replaced along with the constants in scope. -/
theorem evaluateWithin_rename (keeps : Keeps σ) (scope : ConstScope) (fuel : Nat) (expr : Tree) :
    (scope.rename σ).evaluateWithin fuel (expr.rename σ) = scope.evaluateWithin fuel expr := by
  induction fuel generalizing σ scope expr with
  | zero => rfl
  | succ fuel ih =>
      refine commutes_of_forward (fun name (argument : ConstScope × Tree) => (argument.1.rename name, argument.2.rename name))
        (fun _ value => value) (fun argument => argument.1.evaluateWithin (fuel + 1) argument.2) (fun _ => none)
        (fun σ argument => ?_) (fun _ _ => rfl) (fun _ _ => rfl) (fun σ keeps argument => ?_) keeps (scope, expr)
      · simp [rename_symm]
      · obtain ⟨scope, expr⟩ := argument
        change scope.evaluateWithin (fuel + 1) expr = none ∨
          (scope.rename σ).evaluateWithin (fuel + 1) (expr.rename σ) = scope.evaluateWithin (fuel + 1) expr
        unfold evaluateWithin
        split
        · right
          simp [Token.rename]
        · right
          rename_i word
          have holds : σ word = "true" ↔ word = "true" := Keeps.eq_iff keeps (by simp [reservedWords])
          have same : (σ word == "true") = (word == "true") := by rw [Bool.eq_iff_iff, beq_iff_eq, beq_iff_eq, holds]
          simp [Token.rename, same]
        · right
          simp [ih keeps]
        · right
          simp [ih keeps, Token.rename]
        · right
          simp [ih keeps, Token.rename]
        · right
          rename_i operand _ type
          have target : castTarget (type.rename σ) = (castTarget type).map σ := by
            rw [castTarget, castTarget, Tree.asPath?_rename, Option.bind_map, Option.map_bind]
            exact Option.bind_congr fun path _ => Tree.onlyName?_rename σ (Keeps.blank keeps) path
          simp only [Tree.rename_node, List.map_cons, List.map_nil, ih keeps, target, Option.bind_map]
          refine Option.bind_congr fun value _ => Option.bind_congr fun name _ => ?_
          exact Constant.cast_rename keeps name value
        · right
          rename_i path
          simp only [Tree.rename_node, List.map_cons, List.map_nil, constantName_rename keeps, Option.bind_map]
          refine Option.bind_congr fun name _ => ?_
          rw [Function.comp_apply, lookup_rename, Option.bind_map]
          exact Option.bind_congr fun value _ => ih keeps scope value
        · exact .inl rfl

theorem evaluate_rename (keeps : Keeps σ) (scope : ConstScope) (expr : Tree) :
    (scope.rename σ).evaluate (expr.rename σ) = scope.evaluate expr :=
  evaluateWithin_rename keeps scope maxSteps expr

end ConstScope

end TestDouble
