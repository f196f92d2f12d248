import Mathlib.Data.List.Induction
import TestDouble.Catalog.Resolve
import TestDouble.Proofs.Catalog.Scope
import TestDouble.Proofs.Source.Children
/-!
# The modules of a catalog

A module whose content is given in place is reached from the annotated one through module items, each in
the content of the one before. The catalog holds exactly the scopes of these modules. A catalog is `Apart`
when no module of it declares two modules of one name; then a path leads to one content only, and looking
up its scope finds that of this content.
-/

namespace TestDouble

namespace Tree

theorem sizeAll_content {item : Tree} {name : String} {content : List Tree}
    (module : item.asModule? = some ⟨name, some content⟩) : sizeAll content < item.size := by
  obtain ⟨attributes, visibility, unsafety, word, inner, rfl⟩ := inline_module_shape module
  simp only [group, size, sizeAll]
  omega

theorem inline_or_other (item : Tree) :
    (∃ name content, item.asModule? = some ⟨name, some content⟩) ∨
      ∀ name content, item.asModule? ≠ some ⟨name, some content⟩ := by
  by_cases inline : ∃ name content, item.asModule? = some ⟨name, some content⟩
  · exact .inl inline
  · exact .inr fun name content same => inline ⟨name, content, same⟩

/-- Induction over items, of which the module items hold items themselves. -/
@[elab_as_elim]
theorem byContents {motive : List Tree → Prop}
    (step : ∀ items, (∀ item ∈ items, ∀ name content, item.asModule? = some ⟨name, some content⟩ →
      motive content) → motive items) (items : List Tree) : motive items := by
  induction size : sizeAll items using Nat.strongRecOn generalizing items with
  | ind bound ih =>
      apply step
      intro item member name content module
      have itemSize := size_le_sizeAll member
      have contentSize := sizeAll_content module
      exact ih (sizeAll content) (by omega) content rfl

theorem wellFormed_content {item : Tree} {name : String} {content : List Tree}
    (module : item.asModule? = some ⟨name, some content⟩) (formed : item.wellFormed = true) :
    ∀ inside ∈ content, inside.wellFormed = true :=
  fun _ member => wellFormed_part formed (content_subset module member)

end Tree

/-- The module at a path below some items, with its content. -/
inductive Inline : List Tree → ModulePath → List Tree → Prop where
  | here (items : List Tree) : Inline items [] items
  | inner {items : List Tree} {item : Tree} {name : String} {content : List Tree} {path : ModulePath}
      {found : List Tree} (member : item ∈ items) (module : item.asModule? = some ⟨name, some content⟩)
      (below : Inline content path found) : Inline items (name :: path) found

namespace Inline

/-- The module above one that is not the annotated module, with the item that declares it. -/
theorem unsnoc {items content : List Tree} {path : ModulePath} {name : String}
    (reached : Inline items (path ++ [name]) content) :
    ∃ above, Inline items path above ∧ ∃ item ∈ above, item.asModule? = some ⟨name, some content⟩ := by
  induction path generalizing items with
  | nil =>
      cases reached with
      | inner member module below =>
          cases below
          exact ⟨items, .here items, _, member, module⟩
  | cons first rest ih =>
      cases reached with
      | inner member module below =>
          obtain ⟨above, reached, found⟩ := ih below
          exact ⟨above, .inner member module reached, found⟩

theorem wellFormed {items content : List Tree} {path : ModulePath} (reached : Inline items path content)
    (formed : ∀ item ∈ items, item.wellFormed = true) : ∀ item ∈ content, item.wellFormed = true := by
  induction reached with
  | here items => exact formed
  | inner member module _ ih =>
      exact ih (Tree.wellFormed_content module (formed _ member))

end Inline

namespace Catalog

/-! ### The scopes are those of the inline modules -/

theorem scopesOf_eq (path : ModulePath) (item : Tree) :
    scopesOf path item =
      match item.asModule? with
      | some ⟨name, some content⟩ =>
        scopesBelow (path ++ [name]) content ++ [(path ++ [name], Scope.ofItems content)]
      | _ => [] := by
  unfold scopesOf Tree.asModule?
  split
  · rfl
  · rename_i other
    split
    · rename_i found
      split at found
      · cases found
        exact absurd rfl (other _ _ _ _ _ _ _)
      · cases found
      · cases found
    · rfl

theorem scopesOf_other {path : ModulePath} {item : Tree}
    (other : ∀ name content, item.asModule? ≠ some ⟨name, some content⟩) : scopesOf path item = [] := by
  rw [scopesOf_eq]
  split
  · rename_i same
    exact absurd same (other _ _)
  · rfl

/-- The scopes of some items and of the modules below them. -/
def scopesWith (path : ModulePath) (items : List Tree) : List (ModulePath × Scope) :=
  scopesBelow path items ++ [(path, Scope.ofItems items)]

theorem mem_scopesWith {path key : ModulePath} {items : List Tree} {scope : Scope} :
    (key, scope) ∈ scopesWith path items ↔
      (∃ item ∈ items, ∃ name content, item.asModule? = some ⟨name, some content⟩ ∧
        (key, scope) ∈ scopesWith (path ++ [name]) content) ∨
      key = path ∧ scope = Scope.ofItems items := by
  unfold scopesWith
  rw [List.mem_append, List.mem_singleton, Prod.mk.injEq, scopesBelow_eq_flatMap, List.mem_flatMap]
  apply or_congr_left
  constructor
  · rintro ⟨item, member, found⟩
    rw [scopesOf_eq] at found
    split at found
    · rename_i name content module
      exact ⟨item, member, name, content, module, found⟩
    · cases found
  · rintro ⟨item, member, name, content, module, found⟩
    refine ⟨item, member, ?_⟩
    rw [scopesOf_eq, module]
    exact found

theorem inline_of_mem {path key : ModulePath} {items : List Tree} {scope : Scope}
    (member : (key, scope) ∈ scopesWith path items) :
    ∃ below content, key = path ++ below ∧ Inline items below content ∧ scope = Scope.ofItems content := by
  induction items using Tree.byContents generalizing path with
  | step items ih =>
      rcases mem_scopesWith.mp member with ⟨item, itemIn, name, content, module, inside⟩ | ⟨same, own⟩
      · obtain ⟨below, found, key, reached, own⟩ := ih item itemIn name content module inside
        refine ⟨name :: below, found, ?_, .inner itemIn module reached, own⟩
        rw [key, List.append_assoc]
        rfl
      · exact ⟨[], items, by rw [same, List.append_nil], .here items, own⟩

theorem mem_of_inline {below : ModulePath} {items content : List Tree} (reached : Inline items below content)
    (path : ModulePath) : (path ++ below, Scope.ofItems content) ∈ scopesWith path items := by
  induction reached generalizing path with
  | here items =>
      rw [List.append_nil]
      exact mem_scopesWith.mpr (.inr ⟨rfl, rfl⟩)
  | @inner items item name content below found member module _ ih =>
      have inside := ih (path ++ [name])
      rw [List.append_assoc] at inside
      exact mem_scopesWith.mpr (.inl ⟨item, member, name, content, module, inside⟩)

theorem ofModule_eq_ok {module : Tree} {catalog : Catalog} (collected : ofModule module = .ok catalog) :
    ∃ name items, module.asModule? = some ⟨name, some items⟩ ∧ catalog = ofItems name items := by
  unfold ofModule at collected
  split at collected
  · rename_i name items found
    cases collected
    exact ⟨name, items, found, rfl⟩
  · cases collected

variable {root : String} {items : List Tree}

theorem mem_scopes {key : ModulePath} {scope : Scope} :
    (key, scope) ∈ (ofItems root items).scopes ↔
      ∃ content, Inline items key content ∧ scope = Scope.ofItems content := by
  constructor
  · intro member
    obtain ⟨below, content, same, reached, own⟩ := inline_of_mem member
    exact ⟨content, same ▸ reached, own⟩
  · rintro ⟨content, reached, rfl⟩
    exact mem_of_inline reached []

/-- No module declares two modules of one name. -/
def Apart (catalog : Catalog) : Prop := ∀ entry ∈ catalog.scopes, entry.2.modules.Nodup

instance (catalog : Catalog) : Decidable catalog.Apart :=
  inferInstanceAs (Decidable (∀ entry ∈ catalog.scopes, entry.2.modules.Nodup))

theorem inline_unique (apart : (ofItems root items).Apart) {path : ModulePath} {first second : List Tree}
    (firstAt : Inline items path first) (secondAt : Inline items path second) : first = second := by
  induction path using List.reverseRecOn generalizing first second with
  | nil =>
      cases firstAt
      cases secondAt
      rfl
  | append_singleton above name ih =>
      obtain ⟨outer, firstAbove, item, itemIn, firstModule⟩ := firstAt.unsnoc
      obtain ⟨other, secondAbove, twin, twinIn, secondModule⟩ := secondAt.unsnoc
      obtain rfl := ih firstAbove secondAbove
      have distinct := apart _ (mem_scopes.mpr ⟨outer, firstAbove, rfl⟩)
      have firstName : item.moduleName? = some name := Tree.moduleName?_of_asModule? firstModule
      have secondName : twin.moduleName? = some name := Tree.moduleName?_of_asModule? secondModule
      obtain rfl := Scope.module_unique distinct itemIn twinIn firstName secondName
      rw [firstModule] at secondModule
      cases secondModule
      rfl

/-- In a list in which a key has one value only, looking it up finds this value. -/
theorem lookup_of_unique {key : ModulePath} {scope : Scope} {entries : List (ModulePath × Scope)}
    (member : (key, scope) ∈ entries) (unique : ∀ other, (key, other) ∈ entries → other = scope) :
    entries.lookup key = some scope := by
  induction entries with
  | nil => cases member
  | cons entry rest ih =>
      obtain ⟨held, found⟩ := entry
      rw [List.lookup_cons]
      by_cases same : key = held
      · subst same
        rw [unique found List.mem_cons_self]
        simp
      · have later : (key, scope) ∈ rest := by
          rcases List.mem_cons.mp member with own | later
          · cases own
            exact absurd rfl same
          · exact later
        have different : (key == held) = false := by simpa using same
        rw [different]
        exact ih later fun other inside => unique other (List.mem_cons_of_mem _ inside)

theorem scope?_of_inline (apart : (ofItems root items).Apart) {path : ModulePath} {content : List Tree}
    (reached : Inline items path content) :
    (ofItems root items).scope? path = some (Scope.ofItems content) := by
  apply lookup_of_unique
  · exact List.mem_reverse.mpr (mem_scopes.mpr ⟨content, reached, rfl⟩)
  · intro other member
    obtain ⟨found, foundAt, rfl⟩ := mem_scopes.mp (List.mem_reverse.mp member)
    rw [inline_unique apart foundAt reached]

theorem inline_of_scope? {path : ModulePath} {scope : Scope}
    (found : (ofItems root items).scope? path = some scope) :
    ∃ content, Inline items path content ∧ scope = Scope.ofItems content := by
  obtain ⟨before, after, same, -⟩ := List.lookup_eq_some_iff.mp found
  have member : (path, scope) ∈ (ofItems root items).scopes.reverse := by
    rw [same]
    exact List.mem_append_right _ List.mem_cons_self
  exact mem_scopes.mp (List.mem_reverse.mp member)

end Catalog

end TestDouble
