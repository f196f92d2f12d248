import TestDouble.Constant.Scope
import TestDouble.Proofs.Catalog.Rearrangement
import TestDouble.Proofs.Catalog.Resolution
import TestDouble.Proofs.Source.Spelled
/-!
# Catalogs that answer alike

If no name is declared or imported twice, the order of the items decides nothing but the order of the glob
imports. Then the catalogs of rearranged items find the same scopes and the same things in them, and a path
resolves to the same in both.
-/

namespace TestDouble

theorem List.lookup_of_perm {α : Type} {left right : List (String × α)} (same : left.Perm right) {kept : String → Bool}
    (once : ((left.map Prod.fst).filter kept).Nodup) {name : String} (own : kept name = true) :
    left.lookup name = right.lookup name := by
  induction same with
  | nil => rfl
  | cons entry _ ih =>
      have later := once.sublist ((List.sublist_cons_self entry.1 _).filter kept)
      rw [List.lookup_cons, List.lookup_cons, ih later]
  | swap first second rest =>
      rw [List.lookup_cons, List.lookup_cons, List.lookup_cons, List.lookup_cons]
      by_cases atFirst : name = first.1
      · by_cases atSecond : name = second.1
        · rw [List.map_cons, List.map_cons, ← atFirst, ← atSecond, List.filter_cons_of_pos own,
            List.filter_cons_of_pos own] at once
          exact absurd List.mem_cons_self (List.nodup_cons.mp once).1
        · rw [beq_false_of_ne atSecond]
      · rw [beq_false_of_ne atFirst]
  | trans first _ ihFirst ihSecond =>
      have between := ((first.map Prod.fst).filter kept).nodup_iff.mp once
      exact (ihFirst once).trans (ihSecond between)

namespace Scope

/-- That no name is declared or imported twice. An underscore is no name. -/
structure Once (scope : Scope) : Prop where
  traits : (scope.traits.map Prod.fst).Nodup
  types : (scope.types.map Prod.fst).Nodup
  modules : scope.modules.Nodup
  imports : ((scope.imports.map Prod.fst).filter (· != "_")).Nodup
  constants : (((scope.constants.filterMap Tree.constant?).map Prod.fst).filter (· != "_")).Nodup

instance (scope : Scope) : Decidable scope.Once :=
  decidable_of_iff
    ((scope.traits.map Prod.fst).Nodup ∧ (scope.types.map Prod.fst).Nodup ∧ scope.modules.Nodup ∧
      ((scope.imports.map Prod.fst).filter (· != "_")).Nodup ∧
      (((scope.constants.filterMap Tree.constant?).map Prod.fst).filter (· != "_")).Nodup)
    ⟨fun ⟨traits, types, modules, imports, constants⟩ => ⟨traits, types, modules, imports, constants⟩,
      fun once => ⟨once.traits, once.types, once.modules, once.imports, once.constants⟩⟩

/-- That two scopes answer every question alike that a path made of names can raise. -/
structure Alike (scope other : Scope) : Prop where
  traits : ∀ name, scope.traits.lookup name = other.traits.lookup name
  types : ∀ name, scope.types.lookup name = other.types.lookup name
  modules : ∀ name, scope.modules.contains name = other.modules.contains name
  imports : ∀ name, name ≠ "_" → scope.imports.lookup name = other.imports.lookup name
  globs : scope.globs = other.globs
  constants : ∀ name, name ≠ "_" → ConstScope.last? name (scope.constants.filterMap Tree.constant?) =
    ConstScope.last? name (other.constants.filterMap Tree.constant?)

theorem perm_of_rearranged {α : Type} {field : Scope → List α} {held : Tree → List α}
    (holds : ∀ items, field (ofItems items) = (items.flatMap held).reverse)
    (tests : ∀ test : Tree, test.isTestItem = true → held test = [])
    (modules : ∀ attributes visibility unsafety word name inner before after,
      held (Tree.moduleItem attributes visibility unsafety word name inner before) =
        held (Tree.moduleItem attributes visibility unsafety word name inner after))
    {before after : List Tree} (rearranged : Rearranged before after) :
    (field (ofItems before)).Perm (field (ofItems after)) := by
  rw [holds, holds]
  have same := rearranged.perm_flatMap tests modules
  exact (List.reverse_perm _).trans (same.trans (List.reverse_perm _).symm)

/-- What a scope holds of rearranged items differs by its order only. -/
theorem perm_ofItems {before after : List Tree} (rearranged : Rearranged before after) :
    (ofItems before).traits.Perm (ofItems after).traits ∧ (ofItems before).types.Perm (ofItems after).types ∧
      (ofItems before).modules.Perm (ofItems after).modules ∧
      (ofItems before).imports.Perm (ofItems after).imports ∧
      ((ofItems before).constants.filterMap Tree.constant?).Perm
        ((ofItems after).constants.filterMap Tree.constant?) := by
  refine ⟨?_, ?_, ?_, ?_, ?_⟩
  · refine perm_of_rearranged ofItems_traits ?_ (fun _ _ _ _ _ _ _ _ => rfl) rearranged
    intro test isTest
    obtain ⟨function, found⟩ := Tree.asFunction?_of_isTestItem isTest
    rw [(Tree.function_empty found).1]
    rfl
  · refine perm_of_rearranged ofItems_types ?_ (fun _ _ _ _ _ _ _ _ => rfl) rearranged
    intro test isTest
    obtain ⟨function, found⟩ := Tree.asFunction?_of_isTestItem isTest
    rw [(Tree.function_empty found).2.1]
    rfl
  · refine @perm_of_rearranged _ modules (fun item => item.moduleName?.toList) ?_ ?_
      (fun _ _ _ _ _ _ _ _ => rfl) _ _ rearranged
    · intro items
      rw [ofItems_modules, List.filterMap_eq_flatMap_toList]
    · intro test isTest
      obtain ⟨function, found⟩ := Tree.asFunction?_of_isTestItem isTest
      rw [(Tree.function_empty found).2.2.2.1]
      rfl
  · refine perm_of_rearranged ofItems_imports ?_ (fun _ _ _ _ _ _ _ _ => rfl) rearranged
    intro test isTest
    obtain ⟨function, found⟩ := Tree.asFunction?_of_isTestItem isTest
    rw [(Tree.function_empty found).2.2.1]
    rfl
  · rw [ofItems_constants, ofItems_constants]
    refine rearranged.perm_flatMap ?_ fun _ _ _ _ _ _ _ _ => rfl
    intro test isTest
    obtain ⟨function, found⟩ := Tree.asFunction?_of_isTestItem isTest
    rw [(Tree.function_empty found).2.2.2.2.2]
    rfl

theorem alike_ofItems {before after : List Tree} (rearranged : Rearranged before after)
    (once : (ofItems before).Once) : (ofItems before).Alike (ofItems after) := by
  obtain ⟨traits, types, modules, imports, constants⟩ := perm_ofItems rearranged
  constructor
  · intro name
    exact List.lookup_of_perm traits (once.traits.filter fun _ => true) rfl
  · intro name
    exact List.lookup_of_perm types (once.types.filter fun _ => true) rfl
  · intro name
    rw [Bool.eq_iff_iff, List.contains_iff_mem, List.contains_iff_mem, modules.mem_iff]
  · intro name own
    exact List.lookup_of_perm imports once.imports (bne_iff_ne.mpr own)
  · rw [ofItems_globs, ofItems_globs, rearranged.globsOf]
  · intro name own
    have reversed := (List.reverse_perm _).trans (constants.trans (List.reverse_perm _).symm)
    have distinct := (((List.reverse_perm _).map Prod.fst).filter (· != "_")).nodup_iff.mpr once.constants
    exact List.lookup_of_perm reversed distinct (bne_iff_ne.mpr own)

end Scope

namespace Catalog

/-- That no module declares or imports a name twice. -/
def Once (catalog : Catalog) : Prop := ∀ entry ∈ catalog.scopes, entry.2.Once

instance (catalog : Catalog) : Decidable catalog.Once :=
  inferInstanceAs (Decidable (∀ entry ∈ catalog.scopes, entry.2.Once))

/-- That two catalogs have scopes at the same places, and these answer alike. -/
structure Alike (catalog other : Catalog) : Prop where
  root : catalog.root = other.root
  scopes : ∀ path, Option.Rel Scope.Alike (catalog.scope? path) (other.scope? path)

theorem apart_of_once {catalog : Catalog} (once : catalog.Once) : catalog.Apart :=
  fun entry member => (once entry member).modules

theorem apart_of_rearranged {root : String} {before after : List Tree} (rearranged : Rearranged before after)
    (apart : (ofItems root before).Apart) : (ofItems root after).Apart := by
  intro entry member
  obtain ⟨content, reached, scope⟩ := mem_scopes.mp member
  obtain ⟨other, found, same⟩ := rearranged.symm.inline reached
  have distinct := apart _ (mem_scopes.mpr ⟨other, found, rfl⟩)
  rw [scope]
  exact (Scope.perm_ofItems same).2.2.1.nodup_iff.mpr distinct

/-- The catalogs of rearranged items answer alike. -/
theorem alike_ofItems (root : String) {before after : List Tree} (rearranged : Rearranged before after)
    (once : (ofItems root before).Once) : (ofItems root before).Alike (ofItems root after) := by
  have apart := apart_of_once once
  have stillApart := apart_of_rearranged rearranged apart
  refine ⟨rfl, fun path => ?_⟩
  cases found : (ofItems root before).scope? path with
  | some scope =>
      obtain ⟨content, reached, rfl⟩ := inline_of_scope? found
      obtain ⟨other, reachedAfter, same⟩ := rearranged.inline reached
      rw [scope?_of_inline stillApart reachedAfter]
      exact .some (Scope.alike_ofItems same (once _ (mem_scopes.mpr ⟨content, reached, rfl⟩)))
  | none =>
      cases foundAfter : (ofItems root after).scope? path with
      | none => exact .none
      | some scope =>
          obtain ⟨content, reached, -⟩ := inline_of_scope? foundAfter
          obtain ⟨other, reachedBefore, -⟩ := rearranged.symm.inline reached
          rw [scope?_of_inline apart reachedBefore] at found
          cases found

end Catalog

end TestDouble
