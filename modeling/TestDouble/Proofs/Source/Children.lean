import TestDouble.Source.Tree
/-!
# Induction over trees

A tree is reached through its children, so what holds of leaves and passes from all children to their node
holds of every tree. Where an argument goes on with a deeper part, the size of the tree carries it.
-/

namespace TestDouble.Tree

variable {motive : Tree → Prop}

mutual

@[elab_as_elim]
theorem byChildren (token : ∀ t, motive (.token t))
    (node : ∀ kind children, (∀ child ∈ children, motive child) → motive (.node kind children)) :
    ∀ tree, motive tree
  | .token t => token t
  | .node kind children => node kind children (byChildrenAll token node children)

theorem byChildrenAll (token : ∀ t, motive (.token t))
    (node : ∀ kind children, (∀ child ∈ children, motive child) → motive (.node kind children)) :
    ∀ trees : List Tree, ∀ child ∈ trees, motive child
  | [], _, member => nomatch member
  | first :: rest, child, member =>
    match List.mem_cons.mp member with
    | .inl same => same ▸ byChildren token node first
    | .inr later => byChildrenAll token node rest child later

end

/-! ### Parts -/

mutual

/-- A tree and everything inside it. -/
def subtrees : Tree → List Tree
  | .token t => [.token t]
  | .node kind children => .node kind children :: subtreesAll children

def subtreesAll : List Tree → List Tree
  | [] => []
  | tree :: rest => subtrees tree ++ subtreesAll rest

end

theorem subtreesAll_eq_flatMap (trees : List Tree) : subtreesAll trees = trees.flatMap subtrees := by
  induction trees with
  | nil => rfl
  | cons first rest ih => rw [subtreesAll, ih, List.flatMap_cons]

theorem mem_subtrees_self (tree : Tree) : tree ∈ tree.subtrees := by
  cases tree with
  | token t => exact List.mem_cons_self
  | node kind children => exact List.mem_cons_self

theorem subtrees_child {kind : Kind} {children : List Tree} {child : Tree} (member : child ∈ children) :
    child.subtrees ⊆ (node kind children).subtrees := by
  intro part inside
  rw [subtrees, subtreesAll_eq_flatMap]
  exact List.mem_cons_of_mem _ (List.mem_flatMap.mpr ⟨child, member, inside⟩)

theorem mem_subtrees_node {part : Tree} {kind : Kind} {children : List Tree} :
    part ∈ (node kind children).subtrees ↔ part = node kind children ∨ ∃ child ∈ children, part ∈ child.subtrees := by
  rw [subtrees, List.mem_cons, subtreesAll_eq_flatMap, List.mem_flatMap]

theorem mem_subtrees_child {kind : Kind} {children : List Tree} {child : Tree} (member : child ∈ children) :
    child ∈ (node kind children).subtrees :=
  subtrees_child member (mem_subtrees_self child)

/-- What passes from every node to its children passes to everything inside. -/
theorem inherited (child : ∀ {kind children part}, motive (.node kind children) → part ∈ children → motive part)
    {tree part : Tree} (own : motive tree) (inside : part ∈ tree.subtrees) : motive part := by
  induction tree using byChildren with
  | token t =>
      cases List.mem_singleton.mp inside
      exact own
  | node kind children ih =>
      rcases mem_subtrees_node.mp inside with rfl | ⟨next, member, deeper⟩
      · exact own
      · exact ih next member (child own member) deeper

theorem subtrees_trans {tree part inner : Tree} (inside : part ∈ tree.subtrees) (below : inner ∈ part.subtrees) :
    inner ∈ tree.subtrees :=
  inherited (motive := fun part => part.subtrees ⊆ tree.subtrees)
    (fun within member => List.Subset.trans (subtrees_child member) within) (List.Subset.refl _) inside below

/-! ### Tokens -/

theorem tokens_node {kind : Kind} (other : ∀ delimiter, kind ≠ .group delimiter) (children : List Tree) :
    (node kind children).tokens = tokensAll children := by
  cases kind
  case group d => exact absurd rfl (other d)
  all_goals rfl

theorem token_of_isPunct {text : String} {tree : Tree} (punct : tree.isPunct text = true) :
    ∃ joint, tree = .token (.punct text joint) := by
  unfold isPunct at punct
  split at punct
  · obtain rfl := eq_of_beq punct
    exact ⟨_, rfl⟩
  · cases punct

/-! ### Separated lists -/

theorem intersperse_cons {separator first : Tree} {rest : List Tree} (more : rest ≠ []) :
    (first :: rest).intersperse separator = first :: separator :: rest.intersperse separator := by
  cases rest with
  | nil => exact absurd rfl more
  | cons second others => rfl

theorem map_intersperse (rewritten : Tree → Tree) (separator : Tree) (trees : List Tree) :
    (trees.intersperse separator).map rewritten = (trees.map rewritten).intersperse (rewritten separator) := by
  induction trees with
  | nil => rfl
  | cons first rest ih =>
      by_cases more : rest = []
      · rw [more]
        rfl
      · rw [intersperse_cons more, List.map_cons, List.map_cons, ih, List.map_cons,
          intersperse_cons (mt List.map_eq_nil_iff.mp more)]

/-! ### Sizes -/

theorem size_le_sizeAll {tree : Tree} {trees : List Tree} (member : tree ∈ trees) : tree.size ≤ sizeAll trees := by
  induction trees with
  | nil => cases member
  | cons first rest ih =>
      rw [sizeAll]
      rcases List.mem_cons.mp member with rfl | later
      · exact Nat.le_add_right _ _
      · exact Nat.le_trans (ih later) (Nat.le_add_left _ _)

theorem size_child {kind : Kind} {children : List Tree} {child : Tree} (member : child ∈ children) :
    child.size < (Tree.node kind children).size :=
  Nat.lt_succ_of_le (size_le_sizeAll member)

end TestDouble.Tree
