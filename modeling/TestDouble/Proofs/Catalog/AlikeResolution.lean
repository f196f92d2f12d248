import TestDouble.Proofs.Catalog.Alike
/-!
# Resolving in catalogs that answer alike

A path made of names is followed through the same scopes in both catalogs, and so are the paths of the imports
that it is led through, which are made of names as well.
-/

namespace TestDouble

namespace Binding

/-- The path that a binding leads to. -/
def path : Binding → List String
  | named _ path => path
  | all path => path

theorem not_blank_concat {above : List String} (named : "_" ∉ above) {name : String} (own : name ≠ "_") :
    "_" ∉ above ++ [name] := by
  intro member
  rcases List.mem_append.mp member with inside | last
  · exact named inside
  · exact own (List.mem_singleton.mp last).symm

mutual

theorem ofTree_spelled {above : List String} (named : "_" ∉ above) :
    ∀ tree : Tree, tree.spelled = true → ∀ binding ∈ ofTree above tree, "_" ∉ binding.path
  | .token _, _, _, member => nomatch member
  | .node kind children, spelled, binding, member => by
      unfold ofTree at member
      split at member
      · rename_i name mark tree same
        cases same
        exact ofTree_spelled (not_blank_concat named (Tree.spelled_lead spelled rfl)) tree
          (Tree.spelled_child spelled (by simp)) binding member
      · rename_i name same
        cases same
        split at member
        · obtain ⟨last, _, rfl⟩ := Option.map_eq_some_iff.mp (Option.mem_toList.mp member)
          exact named
        · rw [List.mem_singleton.mp member]
          exact not_blank_concat named (Tree.spelled_lead spelled rfl)
      · rename_i name mark own same
        cases same
        rw [List.mem_singleton.mp member]
        exact not_blank_concat named (Tree.spelled_lead spelled rfl)
      · rw [List.mem_singleton.mp member]
        exact named
      · rename_i trees same
        cases same
        have group := Tree.spelled_child spelled List.mem_cons_self
        exact ofTrees_spelled named trees (fun tree inside => Tree.spelled_child group inside) binding member
      · cases member

theorem ofTrees_spelled {above : List String} (named : "_" ∉ above) :
    ∀ trees : List Tree, (∀ tree ∈ trees, tree.spelled = true) → ∀ binding ∈ ofTrees above trees, "_" ∉ binding.path
  | [], _, _, member => nomatch member
  | first :: rest, spelled, binding, member => by
      rw [ofTrees] at member
      rcases List.mem_append.mp member with own | later
      · exact ofTree_spelled named first (spelled first List.mem_cons_self) binding own
      · exact ofTrees_spelled named rest (fun tree inside => spelled tree (List.mem_cons_of_mem _ inside)) binding later

end

end Binding

namespace Tree

theorem spelled_bindings {item : Tree} (spelled : item.spelled = true) :
    ∀ binding ∈ item.bindings, "_" ∉ binding.path := by
  intro binding member
  unfold bindings at member
  split at member
  · exact Binding.ofTree_spelled (List.not_mem_nil) _ (spelled_child spelled (by simp)) binding member
  · cases member

theorem spelled_aliased {item : Tree} {name : String} {aliased : Tree}
    (found : item.declaredType? = some (name, some aliased)) (spelled : item.spelled = true) :
    aliased.spelled = true := by
  unfold declaredType? at found
  split at found
  · cases found
  · cases found
  · cases found
  · cases found
    exact spelled_child spelled (by simp)
  · cases found

theorem trait_named {item : Tree} {contract : TraitItem} (found : item.asTrait? = some contract)
    (formed : item.wellFormed = true) : contract.name ≠ "_" := by
  obtain ⟨_, _, _, _, _, name, _, _, _, _, _, rfl, rfl⟩ := trait_shape found
  have declared : (ident name).isDeclared = true := wellFormed_fits formed
  rintro rfl
  exact absurd declared (by decide)

end Tree

namespace Scope

/-- That no path in what a scope holds has an underscore for a segment. -/
structure Spelled (scope : Scope) : Prop where
  traits : ∀ entry ∈ scope.traits, entry.2.name ≠ "_" ∧ ∀ member ∈ entry.2.members, member.spelled = true
  types : ∀ entry ∈ scope.types, ∀ aliased, entry.2 = some aliased → aliased.spelled = true
  imports : ∀ entry ∈ scope.imports, "_" ∉ entry.2
  globs : ∀ glob ∈ scope.globs, "_" ∉ glob
  constants : ∀ entry ∈ scope.constants.filterMap Tree.constant?, entry.2.spelled = true

theorem spelled_ofItems {items : List Tree} (formed : ∀ item ∈ items, item.wellFormed = true)
    (spelled : ∀ item ∈ items, item.spelled = true) : (ofItems items).Spelled := by
  constructor
  · intro entry member
    rw [ofItems_traits, List.mem_reverse] at member
    obtain ⟨item, inside, own⟩ := List.mem_flatMap.mp member
    obtain ⟨contract, found, rfl⟩ := Option.map_eq_some_iff.mp (Option.mem_toList.mp own)
    exact ⟨Tree.trait_named found (formed item inside),
      fun member own => Tree.spelled_part (spelled item inside) (Tree.members_subset found own)⟩
  · rintro ⟨name, type⟩ member aliased rfl
    rw [ofItems_types, List.mem_reverse] at member
    obtain ⟨item, inside, own⟩ := List.mem_flatMap.mp member
    exact Tree.spelled_aliased (Option.mem_toList.mp own) (spelled item inside)
  · intro entry member
    rw [ofItems_imports, List.mem_reverse] at member
    obtain ⟨item, inside, own⟩ := List.mem_flatMap.mp member
    obtain ⟨binding, bound, same⟩ := List.mem_filterMap.mp own
    have named := Tree.spelled_bindings (spelled item inside) binding bound
    cases binding with
    | named name path =>
        cases same
        exact named
    | all path => cases same
  · intro glob member
    rw [ofItems_globs] at member
    obtain ⟨item, inside, own⟩ := List.mem_flatMap.mp member
    obtain ⟨binding, bound, same⟩ := List.mem_filterMap.mp own
    have named := Tree.spelled_bindings (spelled item inside) binding bound
    cases binding with
    | named name path => cases same
    | all path =>
        cases same
        exact named
  · rintro ⟨name, value⟩ member
    rw [ofItems_constants] at member
    obtain ⟨item, inside, own⟩ := List.mem_flatMap.mp member
    exact Tree.spelled_part (spelled item inside) (Tree.constant?_mem (Option.mem_toList.mp own))

end Scope

theorem Inline.spelled {items content : List Tree} {path : ModulePath} (reached : Inline items path content)
    (spelled : ∀ item ∈ items, item.spelled = true) : ∀ item ∈ content, item.spelled = true := by
  induction reached with
  | here items => exact spelled
  | inner member module _ ih =>
      exact ih fun _ inside => Tree.spelled_part (spelled _ member) (Tree.content_subset module inside)

/-- That the paths in what a path resolves to are made of names. -/
def Target.Spelled : Target → Prop
  | .trait _ item => item.name ≠ "_" ∧ ∀ member ∈ item.members, member.spelled = true
  | .type _ _ (some aliased) => aliased.spelled = true
  | _ => True

namespace Catalog

/-- That no path in what a catalog holds has an underscore for a segment. -/
def Spelled (catalog : Catalog) : Prop := ∀ path scope, catalog.scope? path = some scope → scope.Spelled

theorem spelled_ofItems {root : String} {items : List Tree} (formed : ∀ item ∈ items, item.wellFormed = true)
    (spelled : ∀ item ∈ items, item.spelled = true) : (ofItems root items).Spelled := by
  intro path scope found
  obtain ⟨content, reached, rfl⟩ := inline_of_scope? found
  exact Scope.spelled_ofItems (reached.wellFormed formed) (reached.spelled spelled)

variable {catalog other : Catalog}

/-! ### What is left of a path -/

theorem climb_subset {current start : ModulePath} {segments rest : List String}
    (climbed : climb current segments = some (start, rest)) : rest ⊆ segments := by
  induction segments generalizing current with
  | nil =>
      cases climbed
      exact List.Subset.refl _
  | cons first more ih =>
      rw [climb] at climbed
      split at climbed
      · split at climbed
        · cases climbed
        · exact fun name member => List.mem_cons_of_mem _ (ih climbed member)
      · cases climbed
        exact List.Subset.refl _

theorem normalize_subset {module start : ModulePath} {segments rest : List String}
    (normal : normalize module segments = some (start, rest)) : rest ⊆ segments := by
  unfold normalize at normal
  have inner := (Option.filter_eq_some_iff.mp normal).1
  split at inner
  · cases inner
    exact fun name member => List.mem_cons_of_mem _ member
  · cases inner
  · exact climb_subset inner

/-- The names that a walk has still to find. -/
def Walk.rest : Walk → List String
  | .arrived _ name => [name]
  | .blocked _ rest => rest

theorem walk_subset {current : ModulePath} {segments : List String} {walk : Walk}
    (walked : catalog.walk current segments = some walk) : walk.rest ⊆ segments := by
  induction segments generalizing current with
  | nil => cases walked
  | cons first more ih =>
      cases more with
      | nil =>
          cases walked
          exact List.Subset.refl _
      | cons second rest =>
          rw [walk_step] at walked
          obtain ⟨scope, found, step⟩ := Option.bind_eq_some_iff.mp walked
          split at step
          · exact fun name member => List.mem_cons_of_mem _ (ih step member)
          · cases step
            exact List.Subset.refl _

/-! ### The same targets -/

theorem Alike.bind_eq {α : Type} (alike : catalog.Alike other) {path : ModulePath} {left right : Scope → Option α}
    (same : ∀ scope twin, catalog.scope? path = some scope → scope.Alike twin → left scope = right twin) :
    (catalog.scope? path).bind left = (other.scope? path).bind right := by
  have related := alike.scopes path
  cases found : catalog.scope? path with
  | none =>
      rw [found] at related
      cases twin : other.scope? path with
      | none => rfl
      | some scope =>
          rw [twin] at related
          cases related
  | some scope =>
      rw [found] at related
      cases twin : other.scope? path with
      | none =>
          rw [twin] at related
          cases related
      | some scope' =>
          rw [twin] at related
          cases related with
          | some alike => exact same scope scope' found alike

theorem Alike.walk_eq (alike : catalog.Alike other) (current : ModulePath) (segments : List String) :
    catalog.walk current segments = other.walk current segments := by
  induction segments generalizing current with
  | nil => rfl
  | cons first more ih =>
      cases more with
      | nil => rfl
      | cons second rest =>
          rw [walk_step, walk_step]
          refine alike.bind_eq fun scope twin _ same => ?_
          rw [same.modules, ih]

theorem findSome?_congr {α β : Type} {left right : α → Option β} {list : List α}
    (same : ∀ element ∈ list, left element = right element) : list.findSome? left = list.findSome? right := by
  induction list with
  | nil => rfl
  | cons first rest ih =>
      rw [List.findSome?_cons, List.findSome?_cons, same first List.mem_cons_self,
        ih fun element member => same element (List.mem_cons_of_mem _ member)]

theorem declaredIn_eq {scope twin : Scope} (same : scope.Alike twin) (module : ModulePath) (name : String) :
    declaredIn module scope name = declaredIn module twin name := by
  rw [declaredIn, declaredIn, same.traits, same.types, same.modules]

theorem imported_eq {scope twin : Scope} (same : scope.Alike twin) (spelled : scope.Spelled)
    {resolve resolve' : List String → Option Target} (below : ∀ path, "_" ∉ path → resolve path = resolve' path)
    (module : ModulePath) {segments : List String} (named : "_" ∉ segments) :
    imported resolve module scope segments = imported resolve' module twin segments := by
  cases segments with
  | nil => rfl
  | cons first rest =>
      have own : first ≠ "_" := fun blank => named (blank ▸ List.mem_cons_self)
      have later : "_" ∉ rest := fun inside => named (List.mem_cons_of_mem _ inside)
      rw [imported, imported, ← same.imports first own]
      cases found : scope.imports.lookup first with
      | some path =>
          have led : "_" ∉ path ++ rest := by
            rw [List.mem_append, not_or]
            exact ⟨spelled.imports _ (mem_of_lookup found), later⟩
          exact congrArg (Option.or · _) (below _ led)
      | none =>
          have each : ∀ glob ∈ scope.globs, resolve (glob ++ first :: rest) = resolve' (glob ++ first :: rest) := by
            intro glob member
            apply below
            rw [List.mem_append, not_or]
            exact ⟨spelled.globs glob member, named⟩
          rw [← same.globs]
          exact findSome?_congr each

/-- A path made of names resolves to the same in both catalogs, however many imports are followed. -/
theorem Alike.resolveWithin_eq (alike : catalog.Alike other) (spelled : catalog.Spelled) (fuel : Nat)
    (module : ModulePath) {segments : List String} (named : "_" ∉ segments) :
    catalog.resolveWithin fuel module segments = other.resolveWithin fuel module segments := by
  induction fuel generalizing module segments with
  | zero => rfl
  | succ fuel ih =>
      rw [resolveWithin, resolveWithin]
      refine Option.bind_congr fun entry normal => ?_
      obtain ⟨start, rest⟩ := entry
      change (catalog.walk start rest).bind _ = (other.walk start rest).bind _
      have left : "_" ∉ rest := fun inside => named (normalize_subset normal inside)
      rw [← alike.walk_eq start rest]
      refine Option.bind_congr fun walk walked => ?_
      have remaining : "_" ∉ walk.rest := fun inside => left (walk_subset walked inside)
      cases walk with
      | arrived current name =>
          refine alike.bind_eq fun scope twin found same => ?_
          have led := imported_eq same (spelled _ _ found) (fun path named => ih current named) current remaining
          rw [declaredIn_eq same]
          exact congrArg (Option.or _) led
      | blocked current rest =>
          refine alike.bind_eq fun scope twin found same => ?_
          exact imported_eq same (spelled _ _ found) (fun path named => ih current named) current remaining

theorem Alike.resolve_eq (alike : catalog.Alike other) (spelled : catalog.Spelled) (module : ModulePath)
    {segments : List String} (named : "_" ∉ segments) :
    catalog.resolve module segments = other.resolve module segments :=
  alike.resolveWithin_eq spelled maxImports module named

/-! ### What is found is made of names -/

theorem Spelled.target (spelled : catalog.Spelled) {module : ModulePath} {segments : List String} {target : Target}
    (resolved : catalog.resolve module segments = some target) : target.Spelled := by
  refine resolveWithin_found Target.Spelled closed_all ?_ ?_ trivial resolved
  · intro module scope name target _ found declared
    rcases declaredIn_cases declared with ⟨item, entered, rfl⟩ | ⟨aliased, entered, rfl⟩ | ⟨entered, rfl⟩
    · exact (spelled _ _ found).traits _ entered
    · cases aliased with
      | none => trivial
      | some type => exact (spelled _ _ found).types _ entered type rfl
    · trivial
  · intro module scope name path _ _ _
    trivial

end Catalog

end TestDouble
