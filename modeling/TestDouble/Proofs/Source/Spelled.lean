import TestDouble.Catalog.Basic
import TestDouble.Proofs.Source.Parts
/-!
# Paths made of names

The underscore reads as a word, but names nothing that a path could lead to. In source it stands for a pattern,
a type or a value, or in the place of a name that is declared; it is never a segment of a path.
-/

namespace TestDouble

/-- The nodes that begin with a segment of a path. -/
def Kind.leadsPath : Kind → Bool
  | .segment | .usePath | .useName | .useRename => true
  | _ => false

namespace Tree

def isBlank (tree : Tree) : Bool := tree.ident? == some "_"

mutual

/-- Whether no path in a tree has an underscore for a segment. -/
def spelled : Tree → Bool
  | .token _ => true
  | .node kind children => !(kind.leadsPath && (children.head?.map isBlank).getD false) && spelledAll children

def spelledAll : List Tree → Bool
  | [] => true
  | tree :: rest => spelled tree && spelledAll rest

end

theorem spelledAll_eq_all (trees : List Tree) : spelledAll trees = trees.all spelled := by
  induction trees with
  | nil => rfl
  | cons first rest ih => rw [spelledAll, ih, List.all_cons]

theorem spelledAll_iff {trees : List Tree} : spelledAll trees = true ↔ ∀ tree ∈ trees, tree.spelled = true := by
  rw [spelledAll_eq_all, List.all_eq_true]

theorem spelled_child {kind : Kind} {children : List Tree} (spelled : (Tree.node kind children).spelled = true)
    {child : Tree} (member : child ∈ children) : child.spelled = true := by
  rw [Tree.spelled, Bool.and_eq_true] at spelled
  exact spelledAll_iff.mp spelled.2 child member

theorem spelled_part {tree part : Tree} (spelled : tree.spelled = true) (inside : part ∈ tree.subtrees) :
    part.spelled = true :=
  inherited (motive := fun part => part.spelled = true) (fun own => spelled_child own) spelled inside

theorem spelled_lead {kind : Kind} {name : String} {rest : List Tree}
    (spelled : (Tree.node kind (ident name :: rest)).spelled = true) (leads : kind.leadsPath = true) : name ≠ "_" := by
  rintro rfl
  rw [Tree.spelled, leads] at spelled
  cases spelled

/-! ### Paths -/

theorem names_spelled {path : Tree} (spelled : path.spelled = true) : "_" ∉ path.names := by
  intro member
  obtain ⟨part, inside, named⟩ := List.mem_map.mp member
  unfold segments at inside
  split at inside
  · obtain ⟨child, kind⟩ := List.mem_filter.mp inside
    have own := spelled_child spelled child
    unfold segmentName at named
    split at named
    · exact spelled_lead own rfl named
    · exact absurd named (by decide)
  · cases inside

end Tree

end TestDouble
