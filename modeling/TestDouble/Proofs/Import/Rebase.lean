import TestDouble.Proofs.Import.Denotation
import TestDouble.Proofs.Source.Children
/-!
# The paths of a rebased tree

Rebasing leaves a path as it is unless it begins with `self` or `super`, and what it puts in the place of
such a path begins with a name that means the same everywhere in a unit. So a path of a rebased tree that
begins with any other name is written the same in the tree before.
-/

namespace TestDouble

namespace List

theorem mem_intersperse {α : Type} {separator element : α} {elements : List α}
    (member : element ∈ elements.intersperse separator) : element ∈ elements ∨ element = separator := by
  induction elements with
  | nil => cases member
  | cons first rest ih =>
      cases rest with
      | nil => exact .inl member
      | cons second more =>
          rw [List.intersperse_cons_cons] at member
          rcases List.mem_cons.mp member with rfl | inside
          · exact .inl List.mem_cons_self
          · rcases List.mem_cons.mp inside with rfl | later
            · exact .inr rfl
            · exact (ih later).imp_left (List.mem_cons_of_mem _)

theorem filter_intersperse {α : Type} {keep : α → Bool} {separator : α} (dropped : keep separator = false)
    (elements : List α) : (elements.intersperse separator).filter keep = elements.filter keep := by
  induction elements with
  | nil => rfl
  | cons first rest ih =>
      cases rest with
      | nil => rfl
      | cons second more =>
          rw [List.intersperse_cons_cons, List.filter_cons, List.filter_cons_of_neg (by simp [dropped]), ih,
            ← List.filter_cons]

end List

namespace Import

variable (catalog : Catalog) (module : ModulePath)

/-! ### What rebasing keeps of a node -/

theorem rebase_node {kind : Kind} (opened : kind ≠ .invocation) (other : kind ≠ .path) (children : List Tree) :
    rebase catalog module (.node kind children) = .node kind (children.map (rebase catalog module)) := by
  rw [rebase, rebaseAll_eq_map]
  · exact opened
  · exact other

theorem paths_node {kind : Kind} (opened : kind ≠ .invocation) (other : kind ≠ .path) (children : List Tree) :
    paths (.node kind children) = children.flatMap paths := by
  rw [paths, pathsAll_eq_flatMap]
  · exact opened
  · exact other

theorem kind?_rebase (tree : Tree) : (rebase catalog module tree).kind? = tree.kind? := by
  unfold rebase
  split <;> rfl

theorem rebase_isNode (kind : Kind) (children : List Tree) :
    ∃ other inside, rebase catalog module (.node kind children) = .node other inside := by
  by_cases invocation : kind = .invocation
  · subst invocation
    rw [rebase]
    exact ⟨_, _, rfl⟩
  · by_cases isPath : kind = .path
    · subst isPath
      rw [rebase]
      exact ⟨_, _, rfl⟩
    · rw [rebase_node catalog module invocation isPath]
      exact ⟨_, _, rfl⟩

theorem isPunct_rebase (text : String) (tree : Tree) :
    (rebase catalog module tree).isPunct text = tree.isPunct text := by
  unfold rebase
  split <;> rfl

theorem segmentName_other {tree : Tree} (other : tree.kind? ≠ some .segment) : tree.segmentName = "" := by
  unfold Tree.segmentName
  split
  · exact absurd rfl other
  · rfl

theorem segmentName_rebase (tree : Tree) :
    (rebase catalog module tree).segmentName = tree.segmentName := by
  by_cases segment : tree.kind? = some .segment
  · cases tree with
    | token t => cases segment
    | node kind children =>
        cases segment
        rw [rebase_node catalog module (by decide) (by decide)]
        cases children with
        | nil => rfl
        | cons first rest =>
            cases first with
            | token t =>
                rw [List.map_cons, rebase]
                cases t <;> rfl
            | node inner below =>
                obtain ⟨kind, inside, same⟩ := rebase_isNode catalog module inner below
                rw [List.map_cons, same]
                rfl
  · have other : (rebase catalog module tree).kind? ≠ some .segment := by
      rw [kind?_rebase]
      exact segment
    rw [segmentName_other segment, segmentName_other other]

/-! ### Names of paths -/

theorem names_eq (children : List Tree) :
    (Tree.node .path children).names =
      (children.filter fun part => part.kind? == some .segment).map Tree.segmentName := rfl

theorem filter_rebase (children : List Tree) :
    (children.map (rebase catalog module)).filter (fun part => part.kind? == some .segment) =
      (children.filter fun part => part.kind? == some .segment).map (rebase catalog module) := by
  rw [List.filter_map]
  congr 1
  apply List.filter_congr
  intro part _
  exact congrArg (· == some Kind.segment) (kind?_rebase catalog module part)

theorem names_rebase_children (children : List Tree) :
    (Tree.node .path (children.map (rebase catalog module))).names = (Tree.node .path children).names := by
  rw [names_eq, names_eq, filter_rebase, List.map_map]
  apply List.map_congr_left
  intro part _
  exact segmentName_rebase catalog module part

theorem isRootPath_rebase_children (children : List Tree) :
    (Tree.node .path (children.map (rebase catalog module))).isRootPath =
      (Tree.node .path children).isRootPath := by
  cases children with
  | nil => rfl
  | cons first rest => exact isPunct_rebase catalog module "::" first

/-! ### What joining keeps -/

theorem filter_join (closing : Option Nat) {segments : List Tree}
    (all : ∀ part ∈ segments, part.kind? = some .segment) :
    (join closing segments).filter (fun part => part.kind? == some .segment) = segments := by
  have kept : segments.filter (fun part => part.kind? == some .segment) = segments := by
    apply List.filter_eq_self.mpr
    intro part member
    rw [all part member]
    rfl
  have separated : (segments.intersperse (Tree.punct "::")).filter (fun part => part.kind? == some .segment) =
      segments := by
    rw [List.filter_intersperse rfl, kept]
  unfold join
  cases closing with
  | none => exact separated
  | some count =>
      simp only
      rw [List.filter_append, List.filter_cons_of_neg (by decide), ← List.filter_append,
        List.take_append_drop, separated]

theorem mem_join {closing : Option Nat} {segments : List Tree} {part : Tree}
    (member : part ∈ join closing segments) : part ∈ segments ∨ ∃ text, part = Tree.punct text := by
  have fromSeparated : ∀ inside ∈ segments.intersperse (Tree.punct "::"),
      inside ∈ segments ∨ ∃ text, inside = Tree.punct text := by
    intro inside interspersed
    exact (List.mem_intersperse interspersed).imp_right fun same => ⟨"::", same⟩
  unfold join at member
  cases closing with
  | none => exact fromSeparated part member
  | some count =>
      rcases List.mem_append.mp member with front | behind
      · exact fromSeparated part (List.mem_of_mem_take front)
      · rcases List.mem_cons.mp behind with rfl | rest
        · exact .inr ⟨">", rfl⟩
        · exact fromSeparated part (List.mem_of_mem_drop rest)

/-! ### Moved paths -/

/-- The words that can stand in front of the import of a path. -/
def starts : List String := "super" :: (WellKnown.standardCrates ++ ["crate"])

theorem fromRoot_head (escaped : Nat) (module : ModulePath) (name : String) :
    (fromRoot escaped module name).segments.head? = some "super" := by
  rw [fromRoot, List.replicate_succ]
  rfl

theorem ofName_head {name : String} {found : ImportPath} (computed : ofName catalog module name = some found) :
    ∃ first ∈ starts, found.segments.head? = some first := by
  have inside : ∀ place own, ∃ first ∈ starts, (fromRoot 0 place own).segments.head? = some first :=
    fun place own => ⟨"super", List.mem_cons_self, fromRoot_head 0 place own⟩
  unfold ofName at computed
  split at computed
  · cases computed
    exact inside _ _
  · cases computed
    exact inside _ _
  · obtain ⟨own, _, rfl⟩ := Option.map_eq_some_iff.mp computed
    exact inside _ _
  · split at computed
    · rename_i absolute
      cases computed
      obtain ⟨first, member, same⟩ := isAbsolute_head (Bool.and_eq_true_iff.mp absolute).1
      exact ⟨first, List.mem_cons_of_mem _ member, same⟩
    · cases computed
      exact inside _ _
  · cases computed
    exact inside _ _

theorem ofAscent_head {ascent : Ascent} {found : ImportPath} (computed : ofAscent catalog ascent = some found) :
    ∃ first ∈ starts, found.segments.head? = some first := by
  unfold ofAscent at computed
  split at computed
  · cases computed
  · split at computed
    · cases computed
      exact ⟨"super", List.mem_cons_self, fromRoot_head _ _ _⟩
    · exact ofName_head catalog _ computed

theorem ofPath_head {segments : List String} {found : ImportPath}
    (computed : ofPath catalog module segments = some found) :
    ∃ first ∈ starts, found.segments.head? = some first := by
  cases segments with
  | nil => cases computed
  | cons first rest =>
      by_cases own : first = "self"
      · subst own
        exact ofAscent_head catalog computed
      · have other : (first :: rest).head? ≠ some "self" := fun same => own (Option.some.inj same)
        rw [ofPath_other catalog module other] at computed
        exact ofAscent_head catalog computed

def plainSegment (name : String) : Tree := .node .segment [Tree.ident name]

/-- How many segments in front of a path only say where it starts. -/
def leading (segments : List Tree) : Nat := ((segments.map Tree.segmentName).takeWhile isRelative).length

theorem movedSegments_none {segments : List Tree}
    (missing : ofPath catalog module (segments.map Tree.segmentName) = none) :
    movedSegments catalog module segments = segments := by
  simp only [movedSegments, missing]

/-- The import of a path takes the place of its front; the name it imports may take that of the next segment. -/
theorem movedSegments_some {segments : List Tree} {found : ImportPath}
    (computed : ofPath catalog module (segments.map Tree.segmentName) = some found) :
    movedSegments catalog module segments =
      if found.segments.getLast? = (segments.map Tree.segmentName)[leading segments]? then
        found.segments.dropLast.map plainSegment ++ segments.drop (leading segments)
      else found.segments.map plainSegment ++ segments.drop (leading segments + 1) := by
  by_cases kept : found.segments.getLast? = (segments.map Tree.segmentName)[leading segments]?
  · rw [if_pos kept]
    unfold leading at kept
    simp only [movedSegments, computed, if_pos kept]
    rfl
  · rw [if_neg kept]
    unfold leading at kept
    simp only [movedSegments, computed, if_neg kept]
    rfl

theorem movedSegments_mem {segments : List Tree} {part : Tree}
    (member : part ∈ movedSegments catalog module segments) :
    part ∈ segments ∨ ∃ name, part = plainSegment name := by
  cases computed : ofPath catalog module (segments.map Tree.segmentName) with
  | none =>
      rw [movedSegments_none catalog module computed] at member
      exact .inl member
  | some found =>
      rw [movedSegments_some catalog module computed] at member
      split at member
      · rcases List.mem_append.mp member with front | behind
        · obtain ⟨name, _, same⟩ := List.mem_map.mp front
          exact .inr ⟨name, same.symm⟩
        · exact .inl (List.mem_of_mem_drop behind)
      · rcases List.mem_append.mp member with front | behind
        · obtain ⟨name, _, same⟩ := List.mem_map.mp front
          exact .inr ⟨name, same.symm⟩
        · exact .inl (List.mem_of_mem_drop behind)

theorem names_plainSegments (names : List String) :
    (names.map plainSegment).map Tree.segmentName = names := by
  rw [List.map_map]
  exact List.map_id names

/-- What stands for a relative path begins with a word that means the same in every unit. -/
theorem movedSegments_head {segments rest : List Tree} {first : Tree} (same : segments = first :: rest)
    (relative : isRelative first.segmentName = true) :
    ∃ start ∈ "self" :: starts,
      ((movedSegments catalog module segments).map Tree.segmentName).head? = some start := by
  cases computed : ofPath catalog module (segments.map Tree.segmentName) with
  | none =>
      rw [movedSegments_none catalog module computed, same]
      refine ⟨first.segmentName, ?_, rfl⟩
      rcases Bool.or_eq_true_iff.mp relative with own | above
      · rw [eq_of_beq own]
        exact List.mem_cons_self
      · rw [eq_of_beq above]
        exact List.mem_cons_of_mem _ List.mem_cons_self
  | some found =>
      obtain ⟨start, member, head⟩ := ofPath_head catalog module computed
      refine ⟨start, List.mem_cons_of_mem _ member, ?_⟩
      obtain ⟨words, written⟩ : ∃ words, found.segments = start :: words := by
        cases path : found.segments with
        | nil => rw [path] at head; cases head
        | cons word words =>
            rw [path] at head
            cases head
            exact ⟨words, rfl⟩
      rw [movedSegments_some catalog module computed, written]
      split
      · rename_i kept
        rw [List.map_append, names_plainSegments]
        cases words with
        | nil =>
            -- the import is a single name, and the segment that it names stays
            rw [List.map_drop, List.head?_append]
            simpa [List.head?_drop] using kept.symm
        | cons second words => rfl
      · rw [List.map_append, names_plainSegments]
        rfl

/-! ### The paths of a rebased tree -/

theorem starts_everywhere : ∀ word ∈ "self" :: starts, word ∈ WellKnown.everywhere := by
  decide

/-- A path of a rebased tree begins with a word usable everywhere, or stands the same in the tree before. -/
def Accounted (before : List Tree) (path : Tree) : Prop :=
  (∃ first ∈ WellKnown.everywhere, path.names.head? = some first) ∨
    ∃ original ∈ before, path.names = original.names ∧ path.isRootPath = original.isRootPath

theorem movePath_cases (children : List Tree) :
    movePath catalog module children = children ∨
      ((Tree.node .path children).names.head?.map isRelative).getD false = true ∧
        movePath catalog module children =
          Tree.absent :: join (enclosed children)
            (movedSegments catalog module (Tree.node .path children).segments) := by
  by_cases moved : (!(Tree.node .path children).isRootPath &&
      ((Tree.node .path children).names.head?.map isRelative).getD false) = true
  · exact .inr ⟨(Bool.and_eq_true_iff.mp moved).2, if_pos moved⟩
  · exact .inl (if_neg moved)

theorem segments_kind {children : List Tree} :
    ∀ part ∈ (Tree.node .path children).segments, part.kind? = some .segment := by
  intro part member
  exact eq_of_beq (List.mem_filter.mp member).2

theorem moved_kind {segments : List Tree} (all : ∀ part ∈ segments, part.kind? = some .segment) :
    ∀ part ∈ movedSegments catalog module segments, part.kind? = some .segment := by
  intro part member
  rcases movedSegments_mem catalog module member with inside | ⟨name, rfl⟩
  · exact all part inside
  · rfl

theorem moved_names_head {children : List Tree}
    (relative : ((Tree.node .path children).names.head?.map isRelative).getD false = true)
    (closing : Option Nat) :
    ∃ first ∈ WellKnown.everywhere,
      (Tree.node .path (Tree.absent :: join closing
        (movedSegments catalog module (Tree.node .path children).segments))).names.head? = some first := by
  cases segments : (Tree.node .path children).segments with
  | nil =>
      rw [Tree.names, segments] at relative
      cases relative
  | cons first rest =>
      have opens : isRelative first.segmentName = true := by
        rw [Tree.names, segments] at relative
        exact relative
      obtain ⟨start, member, head⟩ := movedSegments_head catalog module rfl opens
      have kinds : ∀ part ∈ movedSegments catalog module (first :: rest), part.kind? = some .segment := by
        rw [← segments]
        exact moved_kind catalog module segments_kind
      refine ⟨start, starts_everywhere start member, ?_⟩
      rw [names_eq, List.filter_cons_of_neg (by decide), filter_join closing kinds]
      exact head

theorem paths_plain {part : Tree} (plain : ∃ name, part = plainSegment name) : paths part = [] := by
  obtain ⟨name, rfl⟩ := plain
  rfl

/-- The parts of a moved path are parts of the path as it was, or hold no paths. -/
theorem movePath_mem {children : List Tree} {part : Tree} (member : part ∈ movePath catalog module children) :
    part ∈ children ∨ paths part = [] := by
  rcases movePath_cases catalog module children with same | ⟨_, same⟩
  · rw [same] at member
    exact .inl member
  · rw [same] at member
    rcases List.mem_cons.mp member with rfl | joined
    · exact .inr rfl
    · rcases mem_join joined with moved | ⟨text, rfl⟩
      · rcases movedSegments_mem catalog module moved with inside | plain
        · exact .inl (List.mem_filter.mp inside).1
        · exact .inr (paths_plain plain)
      · exact .inr rfl

theorem Accounted.mono {before after : List Tree} {path : Tree} (accounted : Accounted before path)
    (more : ∀ original ∈ before, original ∈ after) : Accounted after path :=
  accounted.imp_right fun ⟨original, member, same⟩ => ⟨original, more original member, same⟩

theorem mem_paths_child {kind : Kind} {children : List Tree} {child path : Tree} (member : child ∈ children)
    (inside : path ∈ paths child) (opened : kind ≠ .invocation) : path ∈ paths (.node kind children) := by
  have below : path ∈ pathsAll children := by
    rw [pathsAll_eq_flatMap]
    exact List.mem_flatMap.mpr ⟨child, member, inside⟩
  unfold paths
  split
  · rename_i impossible
    cases impossible
  · rename_i same
    cases same
    exact absurd rfl opened
  · rename_i same
    cases same
    exact List.mem_cons_of_mem _ below
  · rename_i same
    cases same
    exact below

theorem paths_rebase {tree path : Tree} (member : path ∈ paths (rebase catalog module tree)) :
    Accounted (paths tree) path := by
  induction tree using Tree.byChildren generalizing path with
  | token t =>
      rw [rebase] at member
      cases member
  | node kind children ih =>
      have below : ∀ part ∈ children.map (rebase catalog module), path ∈ paths part →
          kind ≠ .invocation → Accounted (paths (.node kind children)) path := by
        intro part rebased inside opened
        obtain ⟨child, childIn, rfl⟩ := List.mem_map.mp rebased
        exact (ih child childIn inside).mono fun original found => mem_paths_child childIn found opened
      by_cases invocation : kind = .invocation
      · subst invocation
        rw [rebase] at member
        cases member
      · by_cases isPath : kind = .path
        · subst isPath
          rw [rebase, rebaseAll_eq_map, paths, pathsAll_eq_flatMap] at member
          rcases List.mem_cons.mp member with rfl | deeper
          · rcases movePath_cases catalog module (children.map (rebase catalog module)) with same | ⟨relative, same⟩
            · rw [same]
              refine .inr ⟨.node .path children, List.mem_cons_self, ?_, ?_⟩
              · exact names_rebase_children catalog module children
              · exact isRootPath_rebase_children catalog module children
            · rw [same]
              exact .inl (moved_names_head catalog module relative _)
          · obtain ⟨part, partIn, inside⟩ := List.mem_flatMap.mp deeper
            rcases movePath_mem catalog module partIn with kept | empty
            · exact below part kept inside invocation
            · rw [empty] at inside
              cases inside
        · rw [rebase_node catalog module invocation isPath, paths_node invocation isPath] at member
          obtain ⟨part, partIn, inside⟩ := List.mem_flatMap.mp member
          exact below part partIn inside invocation

end Import

end TestDouble
