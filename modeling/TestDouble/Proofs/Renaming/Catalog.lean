import TestDouble.Catalog.Resolve
import TestDouble.Proofs.Catalog.Resolution
import TestDouble.Proofs.Catalog.Tests
import TestDouble.Proofs.Renaming.Tree
import TestDouble.WellKnown
/-!
# Renaming and the catalog

Only a few words mean something by themselves. A renaming that keeps them turns what the items of a module
declare and import into what the renamed items do, so every path, renamed, resolves to the renamed target.
-/

namespace TestDouble

/-! ### Words with a meaning -/

namespace WellKnown

def names : List String :=
  everywhere ++ primitives.map Prod.fst ++ "Duration" :: preludeDefaultable ++ defaultable ++ preludeWithoutDefault ++
    withoutDefault ++ preludeNoType ++ noType

end WellKnown

/-- The words that the analysis and the generated code know by themselves. -/
def reservedWords : List String :=
  ["", "_", "of", "test", "true", "self", "super", "crate", "Self", "str", Name.aggregate] ++ WellKnown.names

/-- That a renaming leaves the reserved words as they are. -/
def Keeps (σ : Equiv.Perm String) : Prop := ∀ word ∈ reservedWords, σ word = word

namespace Keeps

variable {σ : Equiv.Perm String} (keeps : Keeps σ)
include keeps

theorem blank : σ "" = "" := keeps "" (by simp [reservedWords])

theorem eq_iff {word : String} (reserved : word ∈ reservedWords) {name : String} : σ name = word ↔ name = word := by
  conv => lhs; rw [← keeps word reserved]
  exact σ.injective.eq_iff

/-- What is known by one of the words that are kept is found for a renamed name as for the name. -/
theorem find? {α : Type} {known : List α} {own : α → String} (reserved : ∀ entry ∈ known, own entry ∈ reservedWords)
    (name : String) : (known.find? fun entry => own entry == σ name) = known.find? fun entry => own entry == name := by
  induction known with
  | nil => rfl
  | cons first rest ih =>
      have same : (own first == σ name) = (own first == name) := by
        rw [Bool.eq_iff_iff, beq_iff_eq, beq_iff_eq, eq_comm, keeps.eq_iff (reserved first List.mem_cons_self), eq_comm]
      rw [List.find?_cons, List.find?_cons, same, ih fun entry member => reserved entry (List.mem_cons_of_mem _ member)]

/-- Membership among words that are kept does not change. -/
theorem mem_iff {words : List String} (reserved : words ⊆ reservedWords) {name : String} : σ name ∈ words ↔ name ∈ words := by
  constructor
  · intro member
    rwa [σ.injective (keeps _ (reserved member))] at member
  · intro member
    rwa [keeps name (reserved member)]

theorem contains {words : List String} (reserved : words ⊆ reservedWords) (name : String) :
    words.contains (σ name) = words.contains name := by
  rw [Bool.eq_iff_iff, List.contains_iff_mem, List.contains_iff_mem]
  exact keeps.mem_iff reserved

end Keeps

namespace List

theorem lookup_rename {α β : Type} (σ : Equiv.Perm String) (renamed : α → β) (entries : List (String × α)) (name : String) :
    (entries.map fun entry => (σ entry.1, renamed entry.2)).lookup (σ name) = (entries.lookup name).map renamed := by
  induction entries with
  | nil => rfl
  | cons first rest ih =>
      rw [List.map_cons, List.lookup_cons, List.lookup_cons, ih]
      by_cases same : name = first.1
      · rw [same, beq_self_eq_true, beq_self_eq_true]
        rfl
      · rw [beq_false_of_ne same, beq_false_of_ne (σ.injective.ne same)]

theorem contains_rename (σ : Equiv.Perm String) (names : List String) (name : String) :
    (names.map σ).contains (σ name) = names.contains name := by
  rw [Bool.eq_iff_iff, List.contains_iff_mem, List.contains_iff_mem]
  exact List.mem_map_of_injective σ.injective

theorem map_symm {α : Type} (rename : (String → String) → α → α) {σ : Equiv.Perm String}
    (back : ∀ value, rename σ.symm (rename σ value) = value) (values : List α) :
    (values.map (rename σ)).map (rename σ.symm) = values := by
  rw [List.map_map]
  exact (List.map_congr_left fun value _ => back value).trans (List.map_id' values)

theorem map_entries_symm {α : Type} (renamed : (String → String) → α → α) {σ : Equiv.Perm String}
    (back : ∀ value, renamed σ.symm (renamed σ value) = value) (entries : List (String × α)) :
    (entries.map fun entry => (σ entry.1, renamed σ entry.2)).map
      (fun entry => (σ.symm entry.1, renamed σ.symm entry.2)) = entries := by
  refine map_symm (fun name entry => (name entry.1, renamed name entry.2)) (fun entry => ?_) entries
  simp only [σ.symm_apply_apply, back]

end List

namespace Tree

theorem size_rename (name : String → String) (tree : Tree) : (tree.rename name).size = tree.size := by
  induction tree using byChildren with
  | token t => rfl
  | node kind children ih =>
      rw [rename_node, size, size, Nat.add_right_cancel_iff]
      induction children with
      | nil => rfl
      | cons first rest later =>
          rw [List.map_cons, sizeAll, sizeAll, ih first List.mem_cons_self,
            later fun child member => ih child (List.mem_cons_of_mem _ member)]

end Tree

/-! ### Bindings -/

namespace Binding

def rename (own : String → String) : Binding → Binding
  | named name path => named (own name) (path.map own)
  | all path => all (path.map own)

variable {σ : Equiv.Perm String}

theorem rename_symm (σ : Equiv.Perm String) (binding : Binding) : (binding.rename σ).rename σ.symm = binding := by
  cases binding <;> simp [rename]

theorem ofTree_rename (keeps : Keeps σ) (above : List String) (tree : Tree) :
    ofTree (above.map σ) (tree.rename σ) = (ofTree above tree).map (rename σ) := by
  refine commutes_of_smaller (fun argument : List String × Tree => argument.2.size)
    (fun name argument => (argument.1.map name, argument.2.rename name)) (fun name => List.map (rename name))
    (fun argument => ofTree argument.1 argument.2) (fun _ => []) (fun σ argument => argument.2.size_rename σ)
    (fun σ argument => ?_) (fun σ => List.map_symm rename (rename_symm σ)) (fun _ _ => rfl) (fun argument smaller σ keeps => ?_)
    keeps (above, tree)
  · simp
  · obtain ⟨above, tree⟩ := argument
    have along : ∀ above inner, inner.size < tree.size →
        ofTree (above.map σ) (inner.rename σ) = (ofTree above inner).map (rename σ) :=
      fun above inner less => smaller (above, inner) less σ keeps
    change ofTree above tree = [] ∨ ofTree (above.map σ) (tree.rename σ) = (ofTree above tree).map (rename σ)
    unfold ofTree
    split
    · right
      rename_i name mark tree
      have inner := along (above ++ [name]) tree (Tree.size_child (by simp))
      simpa [Token.rename] using inner
    · right
      rename_i name
      have own : σ name = "self" ↔ name = "self" := Keeps.eq_iff keeps (by simp [reservedWords])
      by_cases same : name = "self"
      · subst same
        simp [Token.rename, keeps "self" (by simp [reservedWords]), Option.toList_map, Function.comp_def, rename]
      · simp [Token.rename, own, same, rename]
    · right
      simp [Token.rename, rename]
    · right
      simp [rename]
    · right
      rename_i trees
      have below : ∀ inner ∈ trees, ofTree (above.map σ) (inner.rename σ) = (ofTree above inner).map (rename σ) := by
        intro inner member
        refine along above inner (Nat.lt_trans (Tree.size_child member) (Tree.size_child List.mem_cons_self))
      simp only [Tree.rename_node, List.map_cons, List.map_nil, ofTrees_eq_flatMap, List.flatMap_map, List.map_flatMap]
      exact List.flatMap_congr below
    · exact .inl rfl

end Binding

/-! ### Scopes -/

namespace TraitItem

theorem rename_symm (σ : Equiv.Perm String) (contract : TraitItem) :
    (contract.rename σ).rename σ.symm = contract := by
  have trees : ∀ trees : List Tree, (trees.map (Tree.rename σ)).map (Tree.rename σ.symm) = trees :=
    List.map_symm Tree.rename (Tree.rename_symm σ)
  cases contract
  simp only [rename, trees, Equiv.symm_apply_apply]

end TraitItem

namespace Scope

def rename (own : String → String) (scope : Scope) : Scope where
  traits := scope.traits.map fun entry => (own entry.1, entry.2.rename own)
  types := scope.types.map fun entry => (own entry.1, entry.2.map (Tree.rename own))
  modules := scope.modules.map own
  imports := scope.imports.map fun entry => (own entry.1, entry.2.map own)
  globs := scope.globs.map (List.map own)
  constants := scope.constants.map (Tree.rename own)

variable {σ : Equiv.Perm String}

theorem rename_symm (σ : Equiv.Perm String) (scope : Scope) : (scope.rename σ).rename σ.symm = scope := by
  have names : ∀ names : List String, (names.map σ).map σ.symm = names :=
    List.map_symm (fun name => name) σ.symm_apply_apply
  have aliased : ∀ value : Option Tree, (value.map (Tree.rename σ)).map (Tree.rename σ.symm) = value := by
    intro value
    cases value with
    | none => rfl
    | some type => exact congrArg some (Tree.rename_symm σ type)
  have traits := List.map_entries_symm TraitItem.rename (TraitItem.rename_symm σ) scope.traits
  have types := List.map_entries_symm (fun name => Option.map (Tree.rename name)) aliased scope.types
  have imports := List.map_entries_symm (fun name => List.map name) names scope.imports
  have globs := List.map_symm (fun name => List.map name) names scope.globs
  have constants := List.map_symm Tree.rename (Tree.rename_symm σ) scope.constants
  simp only [rename, traits, types, names, imports, globs, constants]

theorem bind_rename (scope : Scope) (binding : Binding) :
    (scope.rename σ).bind (binding.rename σ) = (scope.bind binding).rename σ := by
  cases binding <;> simp [bind, rename, Binding.rename]

theorem foldl_bind_rename (scope : Scope) (bindings : List Binding) :
    (bindings.map (Binding.rename σ)).foldl bind (scope.rename σ) = (bindings.foldl bind scope).rename σ := by
  induction bindings generalizing scope with
  | nil => rfl
  | cons first rest ih => rw [List.map_cons, List.foldl_cons, bind_rename, ih, List.foldl_cons]

theorem addItem_rename (keeps : Keeps σ) (scope : Scope) (item : Tree) :
    (scope.rename σ).addItem (item.rename σ) = (scope.addItem item).rename σ := by
  refine commutes_of_forward (fun name (argument : Scope × Tree) => (argument.1.rename name, argument.2.rename name)) rename
    (fun argument => argument.1.addItem argument.2) Prod.fst (fun σ argument => ?_) rename_symm (fun _ _ => rfl)
    (fun σ keeps argument => ?_) keeps (scope, item)
  · simp [rename_symm]
  · obtain ⟨scope, item⟩ := argument
    change scope.addItem item = scope ∨ (scope.rename σ).addItem (item.rename σ) = (scope.addItem item).rename σ
    unfold addItem
    split
    · right
      rename_i children
      have found := Tree.asTrait?_rename σ (.node .itemTrait children)
      rw [Tree.rename_node] at found ⊢
      simp only [found]
      cases (Tree.node .itemTrait children).asTrait? with
      | none => rfl
      | some contract => rfl
    · right
      simp [rename, Token.rename]
    · right
      simp [rename, Token.rename]
    · right
      simp [rename, Token.rename]
    · right
      simp [rename, Token.rename]
    · right
      simp [rename]
    · right
      rename_i tree _
      have brought := Binding.ofTree_rename keeps [] tree
      rw [List.map_nil] at brought
      simp only [Tree.rename_node, List.map_cons, List.map_nil, brought, foldl_bind_rename]
    · right
      simp [rename, Token.rename]
    · exact .inl rfl

theorem ofItems_rename (keeps : Keeps σ) (items : List Tree) :
    ofItems (items.map (Tree.rename σ)) = (ofItems items).rename σ := by
  have along : ∀ scope : Scope, (items.map (Tree.rename σ)).foldl addItem (scope.rename σ) =
      (items.foldl addItem scope).rename σ := by
    induction items with
    | nil => exact fun scope => rfl
    | cons first rest ih =>
        intro scope
        rw [List.map_cons, List.foldl_cons, addItem_rename keeps, ih, List.foldl_cons]
  exact along {}

end Scope

/-! ### The catalog -/

def Test.rename (name : String → String) (test : Test) : Test :=
  ⟨test.module.map name, test.function.rename name⟩

namespace Catalog

def rename (name : String → String) (catalog : Catalog) : Catalog where
  root := name catalog.root
  scopes := catalog.scopes.map fun entry => (entry.1.map name, entry.2.rename name)
  tests := catalog.tests.map (Test.rename name)

variable {σ : Equiv.Perm String}

theorem isTest_rename (keeps : Keeps σ) (function : Function) : isTest (function.rename σ) = isTest function := by
  rw [isTest, isTest, Function.rename, List.any_map]
  refine List.any_congr rfl fun mark => ?_
  rw [Function.comp_apply, Tree.attributePath?_rename]
  cases mark.attributePath? with
  | none => rfl
  | some path =>
      change (((path.rename σ).names.getLast?.map (· == "test")).getD false) = ((path.names.getLast?.map (· == "test")).getD false)
      rw [Tree.names_rename σ keeps.blank, List.getLast?_map]
      cases path.names.getLast? with
      | none => rfl
      | some last => 
          have own : σ last = "test" ↔ last = "test" := keeps.eq_iff (by simp [reservedWords])
          simp [own]

theorem scopesBelow_rename (keeps : Keeps σ) (path : ModulePath) (items : List Tree) :
    scopesBelow (path.map σ) (items.map (Tree.rename σ)) =
      (scopesBelow path items).map fun entry => (entry.1.map σ, entry.2.rename σ) := by
  induction items using Tree.byContents generalizing path with
  | step items ih =>
      rw [scopesBelow_eq_flatMap, scopesBelow_eq_flatMap, List.flatMap_map, List.map_flatMap]
      refine List.flatMap_congr fun item member => ?_
      rw [scopesOf_eq, scopesOf_eq, Tree.asModule?_rename]
      cases found : item.asModule? with
      | none => rfl
      | some module =>
          obtain ⟨name, _ | content⟩ := module
          · rfl
          · have below := ih item member name content found (path ++ [name])
            have own := Scope.ofItems_rename keeps content
            rw [List.map_append, List.map_singleton] at below
            simp only [Option.map_some, ModuleItem.rename, below, own, List.map_append, List.map_singleton]

theorem testsIn_rename (keeps : Keeps σ) (path : ModulePath) (items : List Tree) :
    testsIn (path.map σ) (items.map (Tree.rename σ)) = (testsIn path items).map (Test.rename σ) := by
  induction items using Tree.byContents generalizing path with
  | step items ih =>
      rw [testsIn_eq_flatMap, testsIn_eq_flatMap, List.flatMap_map, List.map_flatMap]
      refine List.flatMap_congr fun item member => ?_
      rw [testsOf_eq, testsOf_eq, Tree.asModule?_rename, Tree.asFunction?_rename]
      rcases found : item.asModule? with _ | ⟨name, _ | content⟩
      case some.some =>
          have below := ih item member name content found (path ++ [name])
          rwa [List.map_append, List.map_singleton] at below
      -- what is no module with content may be a function
      all_goals
        dsimp only [Option.map_none, Option.map_some, ModuleItem.rename]
        cases item.asFunction? with
        | none => rfl
        | some function =>
            simp only [Option.map_some, isTest_rename keeps]
            split <;> rfl

theorem ofItems_rename (keeps : Keeps σ) (root : String) (items : List Tree) :
    ofItems (σ root) (items.map (Tree.rename σ)) = (ofItems root items).rename σ := by
  have scopes := scopesBelow_rename keeps [] items
  have tests := testsIn_rename keeps [] items
  rw [List.map_nil] at scopes tests
  simp only [ofItems, rename, scopes, tests, Scope.ofItems_rename keeps, List.map_append, List.map_singleton, List.map_nil]

/-- The catalog of a renamed module is the renamed catalog of the module. -/
theorem ofModule_rename (keeps : Keeps σ) (module : Tree) :
    ofModule (module.rename σ) = (ofModule module).map (rename σ) := by
  rw [ofModule, ofModule, Tree.asModule?_rename]
  cases module.asModule? with
  | none => rfl
  | some view =>
      obtain ⟨name, _ | items⟩ := view
      · rfl
      · exact congrArg Except.ok (ofItems_rename keeps name items)

/-! ### Resolving -/

theorem scope?_rename (catalog : Catalog) (module : ModulePath) :
    (catalog.rename σ).scope? (module.map σ) = (catalog.scope? module).map (Scope.rename σ) := by
  rw [scope?, scope?, rename, ← List.map_reverse]
  induction catalog.scopes.reverse with
  | nil => rfl
  | cons first rest ih =>
      rw [List.map_cons, List.lookup_cons, List.lookup_cons, ih]
      by_cases same : module = first.1
      · rw [same, beq_self_eq_true, beq_self_eq_true]
        rfl
      · have different := (List.map_injective_iff.mpr σ.injective).ne same
        rw [beq_false_of_ne same, beq_false_of_ne different]

theorem climb_rename (keeps : Keeps σ) (current : ModulePath) (segments : List String) :
    climb (current.map σ) (segments.map σ) = (climb current segments).map fun found => (found.1.map σ, found.2.map σ) := by
  induction segments generalizing current with
  | nil => rfl
  | cons first rest ih =>
      have up : σ first = "super" ↔ first = "super" := keeps.eq_iff (by simp [reservedWords])
      rw [List.map_cons, climb, climb, List.isEmpty_map]
      by_cases above : first = "super"
      · rw [if_pos (up.mpr above), if_pos above, ← List.map_dropLast, ih]
        split <;> rfl
      · rw [if_neg (mt up.mp above), if_neg above]
        rfl

theorem normalize_rename (keeps : Keeps σ) (module : ModulePath) (segments : List String) :
    normalize (module.map σ) (segments.map σ) =
      (normalize module segments).map fun found => (found.1.map σ, found.2.map σ) := by
  have rest : ∀ start : Option (ModulePath × List String),
      (start.map fun found => (found.1.map σ, found.2.map σ)).filter (fun found => !found.2.isEmpty) =
        (start.filter fun found => !found.2.isEmpty).map fun found => (found.1.map σ, found.2.map σ) := by
    intro start
    cases start with
    | none => rfl
    | some found =>
        rw [Option.map_some, Option.filter_some, Option.filter_some, List.isEmpty_map]
        split <;> rfl
  have here : σ "self" = "self" := keeps "self" (by simp [reservedWords])
  have outside : σ "crate" = "crate" := keeps "crate" (by simp [reservedWords])
  have climbed := climb_rename keeps module segments
  cases segments with
  | nil => exact (congrArg _ climbed).trans (rest _)
  | cons first more =>
      by_cases own : first = "self"
      · subst own
        rw [List.map_cons, here]
        exact rest (some (module, more))
      by_cases root : first = "crate"
      · subst root
        rw [List.map_cons, outside]
        rfl
      · have plain : ∀ name others, name ≠ "self" → name ≠ "crate" → ∀ module, normalize module (name :: others) =
            (climb module (name :: others)).filter fun found => !found.2.isEmpty := by
          intro name others notSelf notCrate module
          unfold normalize
          split
          · rename_i same
            exact absurd (List.cons.inj same).1 notSelf
          · rename_i same
            exact absurd (List.cons.inj same).1 notCrate
          · rfl
        have notSelf : σ first ≠ "self" := fun same => own ((keeps.eq_iff (by simp [reservedWords])).mp same)
        have notCrate : σ first ≠ "crate" := fun same => root ((keeps.eq_iff (by simp [reservedWords])).mp same)
        rw [plain _ _ own root, List.map_cons, plain _ _ notSelf notCrate, ← List.map_cons, climbed]
        exact rest _

def Walk.rename (own : String → String) : Walk → Walk
  | .arrived module name => .arrived (module.map own) (own name)
  | .blocked module rest => .blocked (module.map own) (rest.map own)

theorem walk_rename (catalog : Catalog) (current : ModulePath) (segments : List String) :
    (catalog.rename σ).walk (current.map σ) (segments.map σ) = (catalog.walk current segments).map (Walk.rename σ) := by
  induction segments generalizing current with
  | nil => rfl
  | cons first more ih =>
      cases more with
      | nil => rfl
      | cons second rest =>
          have deeper := ih (current ++ [first])
          rw [List.map_append, List.map_singleton] at deeper
          rw [List.map_cons, List.map_cons, walk_step, walk_step, scope?_rename]
          cases catalog.scope? current with
          | none => rfl
          | some scope =>
              have contained := List.contains_rename σ scope.modules first
              change (if (scope.modules.map σ).contains (σ first) then _ else _) = _
              rw [contained, Option.bind_some]
              cases scope.modules.contains first with
              | true => exact deeper
              | false => rfl

end Catalog

def Target.rename (own : String → String) : Target → Target
  | .trait place item => .trait (place.map own) (item.rename own)
  | .type place name aliased => .type (place.map own) (own name) (aliased.map (Tree.rename own))
  | .module path => .module (path.map own)
  | .external place name path => .external (place.map own) (own name) (path.map own)

namespace Catalog

variable {σ : Equiv.Perm String}

theorem declaredIn_rename (module : ModulePath) (scope : Scope) (name : String) :
    declaredIn (module.map σ) (scope.rename σ) (σ name) = (declaredIn module scope name).map (Target.rename σ) := by
  have trait := List.lookup_rename σ (TraitItem.rename σ) scope.traits name
  have type := List.lookup_rename σ (Option.map (Tree.rename σ)) scope.types name
  have inner := List.contains_rename σ scope.modules name
  simp only [declaredIn, Scope.rename, trait, type, inner]
  cases scope.traits.lookup name with
  | some item => rfl
  | none =>
      cases scope.types.lookup name with
      | some aliased => rfl
      | none =>
          cases scope.modules.contains name with
          | true =>
              have path : (module ++ [name]).map σ = module.map σ ++ [σ name] := List.map_append
              exact congrArg (fun path => some (Target.module path)) path.symm
          | false => rfl

theorem imported_rename {resolve resolve' : List String → Option Target}
    (below : ∀ path : List String, resolve' (path.map σ) = (resolve path).map (Target.rename σ)) (module : ModulePath)
    (scope : Scope) (segments : List String) :
    imported resolve' (module.map σ) (scope.rename σ) (segments.map σ) =
      (imported resolve module scope segments).map (Target.rename σ) := by
  cases segments with
  | nil => rfl
  | cons first rest =>
      have own := List.lookup_rename σ (List.map σ) scope.imports first
      simp only [List.map_cons, imported, Scope.rename, own]
      cases scope.imports.lookup first with
      | some path =>
          have led := below (path ++ rest)
          rw [List.map_append] at led
          simp only [Option.map_some, led]
          cases resolve (path ++ rest) with
          | none => rfl
          | some target => rfl
      | none =>
          simp only [Option.map_none]
          induction scope.globs with
          | nil => rfl
          | cons glob others ih =>
              have led := below (glob ++ first :: rest)
              rw [List.map_append, List.map_cons] at led
              rw [List.map_cons, List.findSome?_cons, List.findSome?_cons, led]
              cases resolve (glob ++ first :: rest) with
              | none => exact ih
              | some target => rfl

theorem resolveWithin_rename (keeps : Keeps σ) (catalog : Catalog) (fuel : Nat) (module : ModulePath)
    (segments : List String) :
    (catalog.rename σ).resolveWithin fuel (module.map σ) (segments.map σ) =
      (catalog.resolveWithin fuel module segments).map (Target.rename σ) := by
  induction fuel generalizing module segments with
  | zero => rfl
  | succ fuel ih =>
      rw [resolveWithin, resolveWithin, normalize_rename keeps]
      cases normalize module segments with
      | none => rfl
      | some found =>
          obtain ⟨start, rest⟩ := found
          simp only [Option.map_some, Option.bind_some, walk_rename]
          cases catalog.walk start rest with
          | none => rfl
          | some walk =>
              cases walk with
              | arrived current name =>
                  simp only [Option.map_some, Option.bind_some, Walk.rename, scope?_rename]
                  cases catalog.scope? current with
                  | none => rfl
                  | some scope =>
                      have led := imported_rename (ih current) current scope [name]
                      rw [List.map_singleton] at led
                      simp only [Option.map_some, Option.bind_some, declaredIn_rename, led]
                      cases declaredIn current scope name with
                      | none => rfl
                      | some target => rfl
              | blocked current rest =>
                  simp only [Option.map_some, Option.bind_some, Walk.rename, scope?_rename]
                  cases catalog.scope? current with
                  | none => rfl
                  | some scope => exact imported_rename (ih current) current scope rest

/-- What a path resolves to, renamed, is what the renamed path resolves to. -/
theorem resolve_rename (keeps : Keeps σ) (catalog : Catalog) (module : ModulePath) (segments : List String) :
    (catalog.rename σ).resolve (module.map σ) (segments.map σ) =
      (catalog.resolve module segments).map (Target.rename σ) :=
  resolveWithin_rename keeps catalog maxImports module segments

end Catalog

end TestDouble
