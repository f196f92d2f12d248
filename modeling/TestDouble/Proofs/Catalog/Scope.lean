import Mathlib.Data.List.Nodup
import TestDouble.Catalog.Scope
import TestDouble.Proofs.Source.WellFormed
/-!
# What a scope declares

Reading the items of a module one after the other gives a scope in which every list holds what the items add
to it, the newest first. No declared name is a word that only says where a path starts.
-/

namespace TestDouble

namespace Tree

/-- The name of a module item, whether or not its content is given in place. -/
def moduleName? : Tree → Option String
  | .node .itemMod (_ :: _ :: _ :: _ :: .token (.ident name) :: _) => some name
  | _ => none

/-- The name of an item that declares a type; an alias comes with the type it stands for. -/
def declaredType? : Tree → Option (String × Option Tree)
  | .node .itemStruct (_ :: _ :: _ :: .token (.ident name) :: _)
  | .node .itemEnum (_ :: _ :: _ :: .token (.ident name) :: _)
  | .node .itemUnion (_ :: _ :: _ :: .token (.ident name) :: _) => some (name, none)
  | .node .itemType [_, _, _, .token (.ident name), _, _, _, _, type, _, _] => some (name, some type)
  | _ => none

/-- What an import item brings in. -/
def bindings : Tree → List Binding
  | .node .itemUse [_, _, _, _, tree, _] => Binding.ofTree [] tree
  | _ => []

theorem moduleName?_of_asModule? {item : Tree} {module : ModuleItem} (found : item.asModule? = some module) :
    item.moduleName? = some module.name := by
  unfold asModule? at found
  split at found
  · cases found
    rfl
  · cases found
    rfl
  · cases found

end Tree

/-- A name that is brought in on its own, with the path as written. -/
def Binding.entry? : Binding → Option (String × List String)
  | named name path => some (name, path)
  | all _ => none

/-- The path of a glob import. -/
def Binding.glob? : Binding → Option (List String)
  | named _ _ => none
  | all path => some path

namespace Scope

/-! ### Imports change no declarations -/

theorem bind_declarations (scope : Scope) (binding : Binding) :
    (scope.bind binding).traits = scope.traits ∧ (scope.bind binding).types = scope.types ∧
      (scope.bind binding).modules = scope.modules := by
  cases binding with
  | named name path => exact ⟨rfl, rfl, rfl⟩
  | all path => exact ⟨rfl, rfl, rfl⟩

theorem foldl_bind_declarations (scope : Scope) (bindings : List Binding) :
    (bindings.foldl bind scope).traits = scope.traits ∧ (bindings.foldl bind scope).types = scope.types ∧
      (bindings.foldl bind scope).modules = scope.modules := by
  induction bindings generalizing scope with
  | nil => exact ⟨rfl, rfl, rfl⟩
  | cons first rest ih =>
      have step := bind_declarations scope first
      have below := ih (scope.bind first)
      exact ⟨below.1.trans step.1, below.2.1.trans step.2.1, below.2.2.trans step.2.2⟩

/-! ### What an item adds -/

/-- The traits that items declare, under their names and in the order of the source. -/
def traitsOf (items : List Tree) : List (String × TraitItem) :=
  items.flatMap fun item => (item.asTrait?.map fun found => (found.name, found)).toList

/-- The types that items declare. -/
def typesOf (items : List Tree) : List (String × Option Tree) := items.flatMap fun item => item.declaredType?.toList

/-- The names that imports bring in one by one, with the paths as written. -/
def importsOf (items : List Tree) : List (String × List String) :=
  items.flatMap fun item => item.bindings.filterMap Binding.entry?

theorem foldl_bind_imports (scope : Scope) (bindings : List Binding) :
    (bindings.foldl bind scope).imports = (bindings.filterMap Binding.entry?).reverse ++ scope.imports := by
  induction bindings generalizing scope with
  | nil => rfl
  | cons first rest ih =>
      rw [List.foldl_cons, ih]
      cases first with
      | named name path => simp [bind, Binding.entry?]
      | all path => rfl

theorem addItem_entries (scope : Scope) (item : Tree) :
    (scope.addItem item).traits = (item.asTrait?.map fun found => (found.name, found)).toList ++ scope.traits ∧
      (scope.addItem item).types = item.declaredType?.toList ++ scope.types ∧
      (scope.addItem item).modules = item.moduleName?.toList ++ scope.modules ∧
      (scope.addItem item).imports = (item.bindings.filterMap Binding.entry?).reverse ++ scope.imports := by
  unfold addItem
  split
  · split
    · rename_i found
      rw [found]
      exact ⟨rfl, rfl, rfl, rfl⟩
    · rename_i found
      rw [found]
      exact ⟨rfl, rfl, rfl, rfl⟩
  · exact ⟨rfl, rfl, rfl, rfl⟩
  · exact ⟨rfl, rfl, rfl, rfl⟩
  · exact ⟨rfl, rfl, rfl, rfl⟩
  · exact ⟨rfl, rfl, rfl, rfl⟩
  · exact ⟨rfl, rfl, rfl, rfl⟩
  · rename_i tree _
    have same := foldl_bind_declarations scope (Binding.ofTree [] tree)
    exact ⟨same.1, same.2.1, same.2.2, foldl_bind_imports scope _⟩
  · exact ⟨rfl, rfl, rfl, rfl⟩
  · rename_i noTrait noStruct noEnum noUnion noType _ noUse noModule
    have trait : item.asTrait? = none := by
      unfold Tree.asTrait?
      split
      · exact absurd rfl (noTrait _)
      · rfl
    have type : item.declaredType? = none := by
      unfold Tree.declaredType?
      split
      · exact absurd rfl (noStruct _ _ _ _ _)
      · exact absurd rfl (noEnum _ _ _ _ _)
      · exact absurd rfl (noUnion _ _ _ _ _)
      · exact absurd rfl (noType _ _ _ _ _ _ _ _ _ _ _)
      · rfl
    have unnamed : item.moduleName? = none := by
      unfold Tree.moduleName?
      split
      · exact absurd rfl (noModule _ _ _ _ _ _)
      · rfl
    have none : item.bindings = [] := by
      unfold Tree.bindings
      split
      · exact absurd rfl (noUse _ _ _ _ _ _)
      · rfl
    rw [trait, type, unnamed, none]
    exact ⟨rfl, rfl, rfl, rfl⟩

/-- A list to which every item adds its entries in front holds those of all items, the last ones first. -/
theorem foldl_addItem {α : Type} (field : Scope → List α) {entries : Tree → List α}
    (adds : ∀ scope item, field (scope.addItem item) = (entries item).reverse ++ field scope) (items : List Tree)
    (scope : Scope) : field (items.foldl addItem scope) = (items.flatMap entries).reverse ++ field scope := by
  induction items generalizing scope with
  | nil => rfl
  | cons first rest ih => rw [List.foldl_cons, ih, adds, List.flatMap_cons, List.reverse_append, List.append_assoc]

theorem reverse_toList {α : Type} (value : Option α) : value.toList.reverse = value.toList := by
  cases value <;> rfl

theorem ofItems_traits (items : List Tree) : (ofItems items).traits = (traitsOf items).reverse := by
  rw [ofItems, foldl_addItem traits fun scope item => ?_]
  · exact List.append_nil _
  · rw [(addItem_entries scope item).1, reverse_toList]

theorem ofItems_types (items : List Tree) : (ofItems items).types = (typesOf items).reverse := by
  rw [ofItems, foldl_addItem types fun scope item => ?_]
  · exact List.append_nil _
  · rw [(addItem_entries scope item).2.1, reverse_toList]

theorem ofItems_imports (items : List Tree) : (ofItems items).imports = (importsOf items).reverse := by
  rw [ofItems, foldl_addItem imports fun scope item => (addItem_entries scope item).2.2.2]
  exact List.append_nil _

/-! ### What an item adds at the end -/

/-- The paths of the glob imports that items hold. -/
def globsOf (items : List Tree) : List (List String) := items.flatMap fun item => item.bindings.filterMap Binding.glob?

theorem foldl_bind_globs (scope : Scope) (bindings : List Binding) :
    (bindings.foldl bind scope).globs = scope.globs ++ bindings.filterMap Binding.glob? ∧
      (bindings.foldl bind scope).constants = scope.constants := by
  induction bindings generalizing scope with
  | nil => exact ⟨(List.append_nil _).symm, rfl⟩
  | cons first rest ih =>
      obtain ⟨globs, constants⟩ := ih (scope.bind first)
      rw [List.foldl_cons, globs, constants]
      cases first with
      | named name path => exact ⟨rfl, rfl⟩
      | all path => exact ⟨List.append_assoc _ _ _, rfl⟩

theorem addItem_ends (scope : Scope) (item : Tree) :
    (scope.addItem item).globs = scope.globs ++ item.bindings.filterMap Binding.glob? ∧
      (scope.addItem item).constants.filterMap Tree.constant? =
        scope.constants.filterMap Tree.constant? ++ item.constant?.toList := by
  unfold addItem
  split
  · split <;> exact ⟨(List.append_nil _).symm, (List.append_nil _).symm⟩
  · exact ⟨(List.append_nil _).symm, (List.append_nil _).symm⟩
  · exact ⟨(List.append_nil _).symm, (List.append_nil _).symm⟩
  · exact ⟨(List.append_nil _).symm, (List.append_nil _).symm⟩
  · exact ⟨(List.append_nil _).symm, (List.append_nil _).symm⟩
  · refine ⟨(List.append_nil _).symm, ?_⟩
    rw [List.filterMap_append, List.filterMap_eq_flatMap_toList _ [_], List.flatMap_singleton]
  · rename_i tree _
    obtain ⟨globs, constants⟩ := foldl_bind_globs scope (Binding.ofTree [] tree)
    refine ⟨globs, ?_⟩
    rw [constants]
    exact (List.append_nil _).symm
  · exact ⟨(List.append_nil _).symm, (List.append_nil _).symm⟩
  · rename_i noConstant noUse _
    have unbound : item.bindings = [] := by
      unfold Tree.bindings
      split
      · exact absurd rfl (noUse _ _ _ _ _ _)
      · rfl
    have valueless : item.constant? = none := by
      unfold Tree.constant?
      split
      · exact absurd rfl (noConstant _)
      · rfl
    rw [unbound, valueless]
    exact ⟨(List.append_nil _).symm, (List.append_nil _).symm⟩

/-- A list to whose end every item adds its entries holds those of all items in the order of the source. -/
theorem foldl_addItem_ends {α : Type} (field : Scope → List α) {entries : Tree → List α}
    (adds : ∀ scope item, field (scope.addItem item) = field scope ++ entries item) (items : List Tree)
    (scope : Scope) : field (items.foldl addItem scope) = field scope ++ items.flatMap entries := by
  induction items generalizing scope with
  | nil => exact (List.append_nil _).symm
  | cons first rest ih => rw [List.foldl_cons, ih, adds, List.flatMap_cons, List.append_assoc]

theorem ofItems_globs (items : List Tree) : (ofItems items).globs = globsOf items := by
  rw [ofItems, foldl_addItem_ends globs fun scope item => (addItem_ends scope item).1]
  rfl

theorem ofItems_constants (items : List Tree) :
    (ofItems items).constants.filterMap Tree.constant? = items.flatMap fun item => item.constant?.toList := by
  rw [ofItems, foldl_addItem_ends (fun scope => scope.constants.filterMap Tree.constant?)
    fun scope item => (addItem_ends scope item).2]
  rfl

/-! ### Modules -/

theorem ofItems_modules (items : List Tree) :
    (ofItems items).modules = (items.filterMap Tree.moduleName?).reverse := by
  rw [ofItems, foldl_addItem modules fun scope item => ?_, List.filterMap_eq_flatMap_toList]
  · exact List.append_nil _
  · rw [(addItem_entries scope item).2.2.1, reverse_toList]

theorem mem_ofItems_modules {items : List Tree} {name : String} :
    name ∈ (ofItems items).modules ↔ ∃ item ∈ items, item.moduleName? = some name := by
  rw [ofItems_modules, List.mem_reverse, List.mem_filterMap]

/-- With no two modules of one name, a name belongs to a single item. -/
theorem module_unique {items : List Tree} (apart : (ofItems items).modules.Nodup) {name : String}
    {first second : Tree} (firstIn : first ∈ items) (secondIn : second ∈ items)
    (firstName : first.moduleName? = some name) (secondName : second.moduleName? = some name) :
    first = second := by
  rw [ofItems_modules, List.nodup_reverse] at apart
  induction items with
  | nil => cases firstIn
  | cons head tail ih =>
      by_cases named : head.moduleName? = some name
      · have apart' : name ∉ tail.filterMap Tree.moduleName? := by
          rw [List.filterMap_cons_some named] at apart
          exact (List.nodup_cons.mp apart).1
        have only : ∀ item ∈ head :: tail, item.moduleName? = some name → item = head := by
          intro item member itemName
          rcases List.mem_cons.mp member with same | later
          · exact same
          · exact absurd (List.mem_filterMap.mpr ⟨item, later, itemName⟩) apart'
        rw [only first firstIn firstName, only second secondIn secondName]
      · have later : ∀ item ∈ head :: tail, item.moduleName? = some name → item ∈ tail := by
          intro item member itemName
          rcases List.mem_cons.mp member with same | later
          · subst same
            exact absurd itemName named
          · exact later
        have tailApart : (tail.filterMap Tree.moduleName?).Nodup := by
          rw [List.filterMap_cons] at apart
          split at apart
          · exact apart
          · exact (List.nodup_cons.mp apart).2
        exact ih tailApart (later first firstIn firstName) (later second secondIn secondName)

/-! ### Declared names -/

/-- Traits stand under their own names, and no declared name is an anchor. -/
structure Named (scope : Scope) : Prop where
  traits : ∀ entry ∈ scope.traits, entry.2.name = entry.1 ∧ entry.1 ∉ Name.anchors
  types : ∀ entry ∈ scope.types, entry.1 ∉ Name.anchors
  modules : ∀ name ∈ scope.modules, name ∉ Name.anchors

theorem named_empty : ({} : Scope).Named where
  traits := by intro entry member; cases member
  types := by intro entry member; cases member
  modules := by intro name member; cases member

theorem Named.ofDeclarations {scope other : Scope} (named : scope.Named) (traits : other.traits = scope.traits)
    (types : other.types = scope.types) (modules : other.modules = scope.modules) : other.Named where
  traits := by rw [traits]; exact named.traits
  types := by rw [types]; exact named.types
  modules := by rw [modules]; exact named.modules

theorem Named.withType {scope : Scope} (named : scope.Named) {name : String} (plain : name ∉ Name.anchors)
    (aliased : Option Tree) : ({ scope with types := (name, aliased) :: scope.types } : Scope).Named where
  traits := named.traits
  types := by
    intro entry member
    rcases List.mem_cons.mp member with rfl | later
    · exact plain
    · exact named.types entry later
  modules := named.modules

theorem Named.addItem {scope : Scope} (named : scope.Named) {item : Tree} (formed : item.wellFormed = true) :
    (scope.addItem item).Named := by
  unfold Scope.addItem
  split
  · rename_i children
    have shape := Tree.wellFormed_fits formed
    split
    · rename_i found view
      refine ⟨?_, named.types, named.modules⟩
      intro entry member
      rcases List.mem_cons.mp member with rfl | later
      · refine ⟨rfl, ?_⟩
        obtain ⟨_, _, _, _, _, name, _, _, _, _, _, same, rfl⟩ := Tree.trait_shape view
        cases same
        exact Tree.namesAt_ident shape rfl
      · exact named.traits entry later
    · exact named
  · exact named.withType (Tree.namesAt_ident (Tree.wellFormed_fits formed) rfl) none
  · exact named.withType (Tree.namesAt_ident (Tree.wellFormed_fits formed) rfl) none
  · exact named.withType (Tree.namesAt_ident (Tree.wellFormed_fits formed) rfl) none
  · exact named.withType (Tree.namesAt_ident (Tree.wellFormed_fits formed) rfl) _
  · exact named.ofDeclarations rfl rfl rfl
  · rename_i tree _
    have same := foldl_bind_declarations scope (Binding.ofTree [] tree)
    exact named.ofDeclarations same.1 same.2.1 same.2.2
  · refine ⟨named.traits, named.types, ?_⟩
    intro name member
    rcases List.mem_cons.mp member with rfl | later
    · obtain ⟨_, _, _, _, _, _, same, plain, -⟩ := Tree.module_shape formed
      cases same
      exact plain
    · exact named.modules name later
  · exact named

theorem named_ofItems {items : List Tree} (formed : ∀ item ∈ items, item.wellFormed = true) :
    (ofItems items).Named := by
  have general : ∀ scope : Scope, scope.Named → (items.foldl addItem scope).Named := by
    induction items with
    | nil => exact fun scope named => named
    | cons first rest ih =>
        intro scope named
        have rest : ∀ item ∈ rest, item.wellFormed = true :=
          fun item member => formed item (List.mem_cons_of_mem _ member)
        exact ih rest _ (named.addItem (formed first List.mem_cons_self))
  exact general {} named_empty

end Scope

end TestDouble
