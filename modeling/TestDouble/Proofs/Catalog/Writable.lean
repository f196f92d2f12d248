import TestDouble.Proofs.Catalog.Keys
import TestDouble.Proofs.Catalog.Resolution
import TestDouble.Proofs.Source.Traits
/-!
# The names in catalogs

All names that a catalog of a module read from source holds can be written again, as they stood in the source. Those of
traits can stand for a declaration: they are no words of the language.
-/

namespace TestDouble

/-- That all names of a path can be written. -/
def Name.AllValid (names : List String) : Prop := ∀ name ∈ names, Name.isValid name = true

namespace Name.AllValid

theorem nil : AllValid [] := nofun

theorem concat {names : List String} {last : String} (valid : AllValid names) (own : Name.isValid last = true) :
    AllValid (names ++ [last]) := by
  intro name member
  rcases List.mem_append.mp member with inside | same
  · exact valid name inside
  · rw [List.mem_singleton.mp same]
    exact own

theorem subset {names others : List String} (valid : AllValid names) (fewer : others ⊆ names) : AllValid others :=
  fun name member => valid name (fewer member)

end Name.AllValid

namespace Binding

mutual

theorem ofTree_valid {above : List String} (valid : Name.AllValid above) :
    ∀ tree : Tree, tree.wellFormed = true → ∀ name path, named name path ∈ ofTree above tree → Name.AllValid path
  | .token _, _, _, _, member => nomatch member
  | .node kind children, formed, name, path, member => by
      unfold ofTree at member
      split at member
      · rename_i first mark tree same
        cases same
        have own : Name.isValid first = true := Tree.wellFormed_child formed (List.mem_cons_self)
        exact ofTree_valid (valid.concat own) tree (Tree.wellFormed_child formed (by simp)) name path member
      · rename_i first same
        cases same
        have own : Name.isValid first = true := Tree.wellFormed_child formed (List.mem_cons_self)
        split at member
        · obtain ⟨last, _, same⟩ := Option.map_eq_some_iff.mp (Option.mem_toList.mp member)
          cases same
          exact valid
        · cases List.mem_singleton.mp member
          exact valid.concat own
      · rename_i first mark own same
        cases same
        cases List.mem_singleton.mp member
        exact valid.concat (Tree.wellFormed_child formed (List.mem_cons_self) : Name.isValid first = true)
      · cases List.mem_singleton.mp member
      · rename_i trees same
        cases same
        have group := Tree.wellFormed_child formed List.mem_cons_self
        exact ofTrees_valid valid trees (fun tree inside => Tree.wellFormed_child group inside) name path member
      · cases member

theorem ofTrees_valid {above : List String} (valid : Name.AllValid above) :
    ∀ trees : List Tree, (∀ tree ∈ trees, tree.wellFormed = true) →
      ∀ name path, named name path ∈ ofTrees above trees → Name.AllValid path
  | [], _, _, _, member => nomatch member
  | first :: rest, formed, name, path, member => by
      rw [ofTrees] at member
      rcases List.mem_append.mp member with own | later
      · exact ofTree_valid valid first (formed first List.mem_cons_self) name path own
      · exact ofTrees_valid valid rest (fun tree inside => formed tree (List.mem_cons_of_mem _ inside)) name path later

end

end Binding

namespace Tree

variable {item : Tree}

theorem isValid_lead {kind : Kind} {children : List Tree} {name : String} (position : Nat)
    (formed : (node kind children).wellFormed = true) (found : children[position]? = some (ident name)) :
    Name.isValid name = true :=
  wellFormed_child formed (List.mem_of_getElem? found)

theorem isDeclarable_trait {contract : TraitItem} (found : item.asTrait? = some contract)
    (formed : item.wellFormed = true) (named : item.NamesTraits) : Name.isDeclarable contract.name = true := by
  have word := named.own found
  have valid : Name.isValid contract.name = true := by
    obtain ⟨_, _, _, _, _, name, _, _, _, _, _, rfl, rfl⟩ := trait_shape found
    exact isValid_lead 5 formed rfl
  simp [Name.isDeclarable, valid, word]

theorem isValid_type {name : String} {aliased : Option Tree} (found : item.declaredType? = some (name, aliased))
    (formed : item.wellFormed = true) : Name.isValid name = true := by
  unfold declaredType? at found
  split at found
  all_goals cases found
  all_goals exact isValid_lead 3 formed rfl

theorem isValid_moduleName {name : String} (found : item.moduleName? = some name) (formed : item.wellFormed = true) :
    Name.isValid name = true := by
  unfold moduleName? at found
  split at found
  · cases found
    exact isValid_lead 4 formed rfl
  · cases found

theorem bindings_valid {name : String} {path : List String} (bound : .named name path ∈ item.bindings)
    (formed : item.wellFormed = true) : Name.AllValid path := by
  unfold bindings at bound
  split at bound
  · exact Binding.ofTree_valid .nil _ (wellFormed_child formed (by simp)) name path bound
  · cases bound

end Tree

theorem Inline.namesTraits {items content : List Tree} {path : ModulePath} (reached : Inline items path content)
    (named : ∀ item ∈ items, item.NamesTraits) : ∀ item ∈ content, item.NamesTraits := by
  induction reached with
  | here items => exact named
  | inner member module below ih => exact ih ((named _ member).content module)

namespace Scope

/-- That all names that a scope holds can be written, and those of traits as declarations. -/
structure Writable (scope : Scope) : Prop where
  traits : ∀ entry ∈ scope.traits, Name.isDeclarable entry.2.name = true ∧
    ∀ member ∈ entry.2.members, member.wellFormed = true
  types : ∀ entry ∈ scope.types, Name.isValid entry.1 = true
  modules : ∀ name ∈ scope.modules, Name.isValid name = true
  imports : ∀ entry ∈ scope.imports, Name.AllValid entry.2

theorem writable_ofItems {items : List Tree} (formed : ∀ item ∈ items, item.wellFormed = true)
    (named : ∀ item ∈ items, item.NamesTraits) : (ofItems items).Writable := by
  constructor
  · intro entry member
    rw [ofItems_traits, List.mem_reverse] at member
    obtain ⟨item, inside, own⟩ := List.mem_flatMap.mp member
    obtain ⟨contract, found, rfl⟩ := Option.map_eq_some_iff.mp (Option.mem_toList.mp own)
    exact ⟨Tree.isDeclarable_trait found (formed item inside) (named item inside),
      fun member own => Tree.wellFormed_part (formed item inside) (Tree.members_subset found own)⟩
  · intro entry member
    rw [ofItems_types, List.mem_reverse] at member
    obtain ⟨item, inside, own⟩ := List.mem_flatMap.mp member
    exact Tree.isValid_type (Option.mem_toList.mp own) (formed item inside)
  · intro name member
    obtain ⟨item, inside, own⟩ := mem_ofItems_modules.mp member
    exact Tree.isValid_moduleName own (formed item inside)
  · intro entry member
    rw [ofItems_imports, List.mem_reverse] at member
    obtain ⟨item, inside, own⟩ := List.mem_flatMap.mp member
    obtain ⟨binding, bound, same⟩ := List.mem_filterMap.mp own
    cases binding with
    | named name path =>
        cases same
        exact Tree.bindings_valid bound (formed item inside)
    | all path => cases same

end Scope

/-- That all names in what a path resolves to can be written. -/
def Target.Writable : Target → Prop
  | .trait place item => Name.AllValid place ∧ Name.isDeclarable item.name = true ∧
      ∀ member ∈ item.members, member.wellFormed = true
  | .type place name _ => Name.AllValid place ∧ Name.isValid name = true
  | Target.module path => Name.AllValid path
  | .external _ _ path => Name.AllValid path

namespace Catalog

def Writable (catalog : Catalog) : Prop := ∀ path scope, catalog.scope? path = some scope → scope.Writable

theorem writable_ofItems {root : String} {items : List Tree} (formed : ∀ item ∈ items, item.wellFormed = true)
    (named : ∀ item ∈ items, item.NamesTraits) : (ofItems root items).Writable := by
  intro path scope found
  obtain ⟨content, reached, rfl⟩ := inline_of_scope? found
  exact Scope.writable_ofItems (reached.wellFormed formed) (reached.namesTraits named)

variable {catalog : Catalog}

theorem Writable.closed (writable : catalog.Writable) : catalog.Closed Name.AllValid where
  above _ valid := valid.subset (List.dropLast_subset _)
  below path scope name valid found declared := valid.concat ((writable path scope found).modules name declared)

theorem Writable.declared (writable : catalog.Writable) {module : ModulePath} {scope : Scope} {name : String}
    {target : Target} (valid : Name.AllValid module) (found : catalog.scope? module = some scope)
    (declared : declaredIn module scope name = some target) : target.Writable := by
  have held := writable module scope found
  rcases declaredIn_cases declared with ⟨item, entered, rfl⟩ | ⟨aliased, entered, rfl⟩ | ⟨entered, rfl⟩
  · have own := held.traits (name, item) entered
    exact ⟨valid, own⟩
  · have own := held.types (name, aliased) entered
    exact ⟨valid, own⟩
  · exact valid.concat (held.modules name entered)

/-- From a module whose path can be written, what is found can be written. -/
theorem Writable.target (writable : catalog.Writable) {module : ModulePath} (valid : Name.AllValid module)
    {segments : List String} {target : Target} (resolved : catalog.resolve module segments = some target) :
    target.Writable := by
  refine resolveWithin_found Target.Writable writable.closed
    (fun module scope name target valid found declared => writable.declared valid found declared) ?_ valid resolved
  intro module scope name path _ found bound
  have held := writable module scope found
  exact held.imports (name, path) (mem_of_lookup bound)

end Catalog

end TestDouble
