import TestDouble.Proofs.Renaming.Analysis
import TestDouble.Proofs.Renaming.Binding
import TestDouble.Proofs.Renaming.Fresh
/-!
# Identifiers that an expansion knows

Nothing is generated from a module, or left of it, that holds an identifier which neither the module nor the
analysis knows: exchanging two such identifiers changes nothing in the module, so it changes nothing in the results.
-/

namespace TestDouble

variable {still : Prop} {σ : Equiv.Perm String} {module : Tree} {root : String} {items : List Tree}

namespace Tree

theorem rename_eq_self {tree : Tree} {name : String → String} (fixed : ∀ own ∈ tree.identifiers, name own = own) :
    tree.rename name = tree := by
  have same : tree.rename name = tree.rename id :=
    rename_congr fun own inside => fixed own (mem_identifiers.mpr inside)
  rw [same, rename_id]

theorem identifiers_rename (name : String → String) (tree : Tree) :
    (tree.rename name).identifiers = tree.identifiers.map name := by
  rw [identifiers, identifiers, tokens_rename, List.filterMap_map, List.map_filterMap]
  exact List.filterMap_congr fun token _ => by cases token <;> rfl

theorem steady_of_fixed {tree : Tree} (fixed : ∀ own ∈ tree.identifiers, σ own = own) : tree.Steady still σ where
  names part inside name declared := fixed name (identifiers_subtree inside (declaredName?_identifier declared))
  quotes _ part inside quoted member := by
    have within := subtrees_trans inside (quotedParts_subset part member)
    exact rename_eq_self fun own listed => fixed own (identifiers_subtree within listed)

end Tree

/-- The content of a module that a renaming leaves alone stays as it is, and so does the name. -/
theorem content_fixed (inline : module.asModule? = some ⟨root, some items⟩) (fixed : module.rename σ = module) :
    σ root = root ∧ items.map (Tree.rename σ) = items := by
  have renamed := Tree.asModule?_rename σ module
  rw [fixed, inline] at renamed
  obtain ⟨name, content⟩ := ModuleItem.mk.inj (Option.some.inj renamed)
  exact ⟨name.symm, (Option.some.inj content).symm⟩

section
variable {own other : String} (unknown : own ∉ module.known) (unknown' : other ∉ module.known)
include unknown unknown'

theorem swap_known {word : String} (member : word ∈ module.known) : Equiv.swap own other word = word :=
  Equiv.swap_apply_of_ne_of_ne (fun same => unknown (same ▸ member)) fun same => unknown' (same ▸ member)

theorem keeps_swap : Keeps (Equiv.swap own other) := fun word reserved =>
  swap_known unknown unknown' (by simp [Tree.known, reserved])

theorem default_swap : ({} : Settings).rename (Equiv.swap own other) = {} :=
  congrArg₂ Settings.mk (swap_known unknown unknown' List.mem_cons_self)
    (swap_known unknown unknown' (List.mem_cons_of_mem _ List.mem_cons_self))

theorem module_swap : ∀ word ∈ module.identifiers, Equiv.swap own other word = word := fun word inside =>
  swap_known unknown unknown' (by simp [Tree.known, inside])

theorem specifications_swap (inline : module.asModule? = some ⟨root, some items⟩) {specifications : List Specification}
    (analyzed : analyze {} (.ofItems root items) = .ok specifications) :
    ∀ specification ∈ specifications, specification.Renamed (Equiv.swap own other) specification := by
  have keeps := keeps_swap unknown unknown'
  have fixed := module_swap unknown unknown'
  have steady : module.Steady False (Equiv.swap own other) := Tree.steady_of_fixed fixed
  obtain ⟨root', items'⟩ := content_fixed inline (Tree.rename_eq_self fixed)
  have content := (steady.asModule? inline).2
  have agree := analyze_agree keeps (Catalog.steady_ofItems root' content)
    fun test member => Test.steady_of_mem keeps.blank content member
  rw [default_swap unknown unknown', ← Catalog.ofItems_rename keeps, root', items', analyzed] at agree
  cases agree with
  | ok same => exact List.forall₂_same.mp same

end

/-- What specifications repeat of a module holds no unknown identifiers. -/
theorem specifications_known (inline : module.asModule? = some ⟨root, some items⟩)
    {specifications : List Specification} (analyzed : analyze {} (.ofItems root items) = .ok specifications)
    {specification : Specification} (member : specification ∈ specifications) :
    (∀ method ∈ specification.methods, method.signature.identifiers ⊆ module.known) ∧
      ∀ path ∈ specification.imports, path.segments ⊆ module.known := by
  constructor
  · intro method own
    refine known_of_swaps fun first second unknown unknown' word inside => ?_
    have renamed := specifications_swap unknown unknown' inline analyzed specification member
    have same := (List.forall₂_same.mp renamed.methods method own).signature
    rw [same, Tree.identifiers_rename]
    exact List.mem_map_of_mem inside
  · have all : specification.imports.flatMap ImportPath.segments ⊆ module.known := by
      refine known_of_swaps fun first second unknown unknown' word inside => ?_
      have renamed := specifications_swap unknown unknown' inline analyzed specification member
      obtain ⟨path, listed, segment⟩ := List.mem_flatMap.mp inside
      refine List.mem_flatMap.mpr ⟨path.rename (Equiv.swap first second), ?_, List.mem_map_of_mem segment⟩
      rw [renamed.imports, ImportPath.mem_sorted]
      exact List.mem_map_of_mem listed
    exact fun path listed segment inside => all (List.mem_flatMap.mpr ⟨path, listed, inside⟩)

/-- What binding leaves of a module holds no unknown identifiers. -/
theorem bindSites_known (inline : module.asModule? = some ⟨root, some items⟩) (keys : List String) :
    (bindSites {} keys module).1.identifiers ⊆ module.known := by
  refine known_of_swaps fun first second unknown unknown' word inside => ?_
  have fixed := module_swap unknown unknown'
  have steady : module.Steady False (Equiv.swap first second) := Tree.steady_of_fixed fixed
  have renamed := bindSites_rename (keeps_swap unknown unknown') {} keys steady inline
  rw [default_swap unknown unknown', Tree.rename_eq_self fixed] at renamed
  have same := congrArg (fun bound => bound.1.identifiers) renamed
  change _ = (Tree.rename _ _).identifiers at same
  rw [same, Tree.identifiers_rename]
  exact List.mem_map_of_mem inside

end TestDouble
