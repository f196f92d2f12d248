import TestDouble.Proofs.Import.Rebase
import TestDouble.Proofs.Source.Plain
/-!
# What rebasing changes

Rebasing changes relative paths and nothing else. In such a path the import takes the place of the words that
say where it starts and of the first name; the later segments stay. The first name keeps its arguments only if
the import ends in that name, and the trait part of a qualified path keeps its number of segments, not its end.
-/

namespace TestDouble

namespace List

theorem take_intersperse {α : Type} (separator : α) (elements : List α) (count : Nat) :
    (elements.intersperse separator).take (2 * count - 1) = (elements.take count).intersperse separator := by
  induction elements generalizing count with
  | nil => simp
  | cons first rest ih =>
      cases count with
      | zero => rfl
      | succ count =>
          have odd : 2 * (count + 1) - 1 = 2 * count + 1 := by omega
          rw [odd]
          cases rest with
          | nil => simp
          | cons second more =>
              cases count with
              | zero => simp
              | succ count =>
                  have even : 2 * (count + 1) = 2 * (count + 1) - 1 + 1 := by omega
                  rw [List.intersperse_cons_cons, List.take_succ_cons, even, List.take_succ_cons, ih]
                  simp

end List

namespace Import

variable (catalog : Catalog) (module : ModulePath)

/-! ### The trait part of a qualified path -/

theorem not_closing_of_separated {segments : List Tree} (kinds : ∀ part ∈ segments, part.kind? = some .segment) :
    ∀ part ∈ segments.intersperse (Tree.punct "::"), part.isPunct ">" = false := by
  intro part member
  rcases List.mem_intersperse member with inside | rfl
  · have kind := kinds part inside
    cases part with
    | token t => cases kind
    | node kind children => rfl
  · rfl

/-- Joined segments have as many inside the qualified type as before, as far as there are so many. -/
theorem enclosed_join (closing : Option Nat) {segments : List Tree}
    (kinds : ∀ part ∈ segments, part.kind? = some .segment) :
    enclosed (Tree.absent :: join closing segments) = closing.map (min · segments.length) := by
  have separated := not_closing_of_separated kinds
  cases closing with
  | none =>
      have none : (Tree.absent :: join none segments).any (Tree.isPunct ">") = false := by
        rw [List.any_cons, List.any_eq_false.mpr]
        · rfl
        · intro part member
          rw [separated part member]
          exact Bool.false_ne_true
      rw [enclosed, none]
      rfl
  | some count =>
      have front : join (some count) segments =
          (segments.take (min count segments.length)).intersperse (Tree.punct "::") ++
            Tree.punct ">" :: (segments.intersperse (Tree.punct "::")).drop (2 * min count segments.length - 1) := by
        rw [← List.take_intersperse]
        rfl
      have inside : ∀ part ∈ (segments.take (min count segments.length)).intersperse (Tree.punct "::"),
          (!part.isPunct ">") = true := by
        intro part member
        rw [not_closing_of_separated (fun own held => kinds own (List.mem_of_mem_take held)) part member]
        rfl
      have taken : (Tree.absent :: join (some count) segments).takeWhile (fun part => !part.isPunct ">") =
          Tree.absent :: (segments.take (min count segments.length)).intersperse (Tree.punct "::") := by
        rw [front, List.takeWhile_cons_of_pos rfl, List.takeWhile_append_of_pos inside,
          List.takeWhile_cons_of_neg (by decide), List.append_nil]
      have closed : (Tree.absent :: join (some count) segments).any (Tree.isPunct ">") = true := by
        rw [front]
        simp [Tree.isPunct, Tree.punct]
      have kept : (segments.take (min count segments.length)).filter (fun part => part.kind? == some .segment) =
          segments.take (min count segments.length) := by
        apply List.filter_eq_self.mpr
        intro part member
        rw [kinds part (List.mem_of_mem_take member)]
        rfl
      rw [enclosed, if_pos closed, taken, List.filter_cons_of_neg (by decide), List.filter_intersperse rfl, kept,
        List.length_take, Nat.min_assoc, Nat.min_self]
      rfl

theorem enclosed_rebase (children : List Tree) :
    enclosed (children.map (rebase catalog module)) = enclosed children := by
  have marks : (Tree.isPunct ">") ∘ rebase catalog module = Tree.isPunct ">" :=
    funext fun part => isPunct_rebase catalog module ">" part
  have opens : (fun part : Tree => !part.isPunct ">") ∘ rebase catalog module = fun part => !part.isPunct ">" :=
    funext fun part => congrArg not (isPunct_rebase catalog module ">" part)
  rw [enclosed, enclosed, List.any_map, marks, List.takeWhile_map, opens, filter_rebase, List.length_map]

/-! ### Relative paths -/

/-- That a path with these children says by its first word where it starts. -/
def Relative (children : List Tree) : Prop :=
  (Tree.node .path children).isRootPath = false ∧
    ((Tree.node .path children).names.head?.map isRelative).getD false = true

/-- Where the first name of a path stands, behind the words that say where the path starts. -/
def start (children : List Tree) : Nat := ((Tree.node .path children).names.takeWhile isRelative).length

theorem relative_rebase (children : List Tree) :
    Relative (children.map (rebase catalog module)) ↔ Relative children := by
  rw [Relative, Relative, names_rebase_children, isRootPath_rebase_children]

theorem movePath_relative {children : List Tree} (relative : Relative children) :
    movePath catalog module children =
      Tree.absent :: join (enclosed children) (movedSegments catalog module (Tree.node .path children).segments) := by
  apply if_pos
  rw [relative.1, relative.2]
  rfl

theorem movePath_other {children : List Tree} (other : ¬Relative children) :
    movePath catalog module children = children := by
  apply if_neg
  intro moved
  have parts := Bool.and_eq_true_iff.mp moved
  exact other ⟨(Bool.not_eq_true' _).mp parts.1, parts.2⟩

/-- How a relative path reads behind its import; `parts` are its segments with what is rebased in them. -/
structure Replaced (found : ImportPath) (before parts after : List Tree) : Prop where
  /-- The import stands for the words in front and the first name. -/
  names : (Tree.node .path after).names =
    found.segments ++ (Tree.node .path before).names.drop (start before + 1)
  /-- All later segments stay. -/
  later : (Tree.node .path after).segments.drop found.segments.length = parts.drop (start before + 1)
  /-- The first name stays with its arguments if the import ends in it; else a bare name stands for it. -/
  own : (Tree.node .path after).segments[found.segments.length - 1]? =
    if found.segments.getLast? = (Tree.node .path before).names[start before]? then parts[start before]?
    else found.segments.getLast?.map plainSegment
  /-- What stands before it are bare names. -/
  bare : ∀ part ∈ (Tree.node .path after).segments.take (found.segments.length - 1), part.hasArguments = false

/--
How trees and what rebasing makes of them are related. An invocation stays as it is, and so does every path
that is not relative, apart from what is rebased in it. In a relative path an import takes the place of its
beginning, unless there is nothing to import; the qualified type ends behind as many segments as before.
-/
inductive Relocated (catalog : Catalog) (module : ModulePath) : Tree → Tree → Prop where
  | token (t : Token) : Relocated catalog module (.token t) (.token t)
  | invocation (children : List Tree) :
      Relocated catalog module (.node .invocation children) (.node .invocation children)
  | kept {kind : Kind} {before after : List Tree} (opened : kind ≠ .invocation)
      (other : kind = .path → ¬Relative before)
      (below : List.Forall₂ (Relocated catalog module) before after) :
      Relocated catalog module (.node kind before) (.node kind after)
  | moved {found : ImportPath} {before parts after : List Tree} (relative : Relative before)
      (computed : ofPath catalog module (Tree.node .path before).names = some found)
      (below : List.Forall₂ (Relocated catalog module) (Tree.node .path before).segments parts)
      (replaced : Replaced found before parts after)
      (split : enclosed after = (enclosed before).map (min · (Tree.node .path after).segments.length)) :
      Relocated catalog module (.node .path before) (.node .path after)
  | nameless {before after : List Tree} (relative : Relative before)
      (missing : ofPath catalog module (Tree.node .path before).names = none)
      (below : List.Forall₂ (Relocated catalog module) (Tree.node .path before).segments
        (Tree.node .path after).segments)
      (split : enclosed after = (enclosed before).map (min · (Tree.node .path after).segments.length)) :
      Relocated catalog module (.node .path before) (.node .path after)

/-! ### What rebasing makes of a relative path -/

theorem segments_rebase (children : List Tree) :
    (Tree.node .path (children.map (rebase catalog module))).segments =
      (Tree.node .path children).segments.map (rebase catalog module) :=
  filter_rebase catalog module children

theorem segments_joined (closing : Option Nat) {segments : List Tree}
    (kinds : ∀ part ∈ segments, part.kind? = some .segment) :
    (Tree.node .path (Tree.absent :: join closing segments)).segments = segments := by
  change List.filter _ _ = _
  rw [List.filter_cons_of_neg (by decide), filter_join closing kinds]

theorem found_append {found : ImportPath} {segments : List String}
    (computed : ofPath catalog module segments = some found) :
    ∃ front last, found.segments = front ++ [last] := by
  obtain ⟨first, _, head⟩ := ofPath_head catalog module computed
  cases written : found.segments using List.reverseRecOn with
  | nil =>
      rw [written] at head
      cases head
  | append_singleton front last => exact ⟨front, last, rfl⟩

theorem plainSegments_bare (names : List String) : ∀ part ∈ names.map plainSegment, part.hasArguments = false := by
  intro part member
  obtain ⟨name, _, rfl⟩ := List.mem_map.mp member
  rfl

theorem replaced_of_moved {found : ImportPath} {before parts after : List Tree}
    (same : parts.map Tree.segmentName = (Tree.node .path before).names)
    (computed : ofPath catalog module (Tree.node .path before).names = some found)
    (moved : (Tree.node .path after).segments = movedSegments catalog module parts) :
    Replaced found before parts after := by
  obtain ⟨front, last, written⟩ := found_append catalog module computed
  have leads : leading parts = start before := by
    rw [leading, same]
    rfl
  rw [← same] at computed
  rw [movedSegments_some catalog module computed, leads, same, written] at moved
  have depth : found.segments.length = front.length + 1 := by
    rw [written, List.length_append]
    rfl
  have ends : found.segments.getLast? = some last := by rw [written, List.getLast?_concat]
  have behind : front.length = (front.map plainSegment).length := (List.length_map _).symm
  rw [List.getLast?_concat] at moved
  by_cases kept : some last = (Tree.node .path before).names[start before]?
  · rw [if_pos kept, List.dropLast_concat] at moved
    have names : (Tree.node .path before).names.drop (start before) =
        last :: (Tree.node .path before).names.drop (start before + 1) := by
      obtain ⟨inside, own⟩ := List.getElem?_eq_some_iff.mp kept.symm
      rw [List.drop_eq_getElem_cons inside, own]
    constructor
    · change (Tree.segments _).map Tree.segmentName = _
      rw [moved, List.map_append, names_plainSegments, List.map_drop, same, names, written, List.append_assoc]
      rfl
    · rw [moved, depth, behind, List.drop_length_add_append, List.drop_drop, Nat.add_comm]
    · rw [moved, depth, ends, if_pos kept, Nat.add_sub_cancel, List.getElem?_append_right (Nat.le_of_eq behind.symm),
        ← behind, Nat.sub_self, List.getElem?_drop, Nat.add_zero]
    · intro part member
      rw [moved, depth, Nat.add_sub_cancel, behind, List.take_left'  rfl] at member
      exact plainSegments_bare front part member
  · rw [if_neg kept] at moved
    have whole : found.segments.map plainSegment = front.map plainSegment ++ [plainSegment last] := by
      rw [written, List.map_append]
      rfl
    rw [← written] at moved
    constructor
    · change (Tree.segments _).map Tree.segmentName = _
      rw [moved, List.map_append, names_plainSegments, List.map_drop, same]
    · rw [moved, List.drop_left' (List.length_map _)]
    · rw [moved, depth, ends, if_neg kept, Nat.add_sub_cancel, whole, behind, List.append_assoc]
      simp
    · intro part member
      rw [moved, depth, Nat.add_sub_cancel] at member
      have inside : front.length ≤ (found.segments.map plainSegment).length := by
        rw [List.length_map, depth]
        omega
      rw [List.take_append_of_le_length inside] at member
      exact plainSegments_bare found.segments part (List.mem_of_mem_take member)

/--
Rebasing changes the beginning of every relative path, at any depth, and nothing else but the place of the
`>` behind the trait of a qualified path, and the arguments of a first name that the import does not end in.
-/
theorem rebase_relocated (tree : Tree) : Relocated catalog module tree (rebase catalog module tree) := by
  induction tree using Tree.byChildren with
  | token t => exact .token t
  | node kind children ih =>
      have below : List.Forall₂ (Relocated catalog module) children (children.map (rebase catalog module)) :=
        List.forall₂_map_right_iff.mpr (List.forall₂_same.mpr ih)
      by_cases invocation : kind = .invocation
      · subst invocation
        rw [rebase]
        exact .invocation children
      by_cases isPath : kind = .path
      · subst isPath
        rw [rebase, rebaseAll_eq_map]
        by_cases relative : Relative children
        · have moved := movePath_relative catalog module ((relative_rebase catalog module children).mpr relative)
          rw [enclosed_rebase, segments_rebase] at moved
          have same : ((Tree.node .path children).segments.map (rebase catalog module)).map Tree.segmentName =
              (Tree.node .path children).names := by
            rw [← segments_rebase]
            exact names_rebase_children catalog module children
          have kinds := moved_kind catalog module (@segments_kind (children.map (rebase catalog module)))
          rw [segments_rebase] at kinds
          have segments : List.Forall₂ (Relocated catalog module) (Tree.node .path children).segments
              ((Tree.node .path children).segments.map (rebase catalog module)) := by
            apply List.forall₂_map_right_iff.mpr
            apply List.forall₂_same.mpr
            intro part member
            exact ih part (List.mem_filter.mp member).1
          rw [moved]
          have split := enclosed_join (enclosed children) kinds
          have after := segments_joined (enclosed children) kinds
          rw [← congrArg List.length after] at split
          cases computed : ofPath catalog module (Tree.node .path children).names with
          | none =>
              have unmoved : movedSegments catalog module
                  ((Tree.node .path children).segments.map (rebase catalog module)) =
                  (Tree.node .path children).segments.map (rebase catalog module) :=
                movedSegments_none catalog module (by rw [same, computed])
              refine .nameless relative computed ?_ split
              rw [after, unmoved]
              exact segments
          | some found =>
              exact .moved relative computed segments (replaced_of_moved catalog module same computed after) split
        · rw [movePath_other catalog module fun moved => relative ((relative_rebase catalog module children).mp moved)]
          exact .kept (by decide) (fun _ => relative) below
      · rw [rebase_node catalog module invocation isPath]
        exact .kept invocation (fun same => absurd same isPath) below

/-- A module that declares a trait and imports a type of another module under a name of its own. -/
def placedItems : List Tree :=
  [Tree.inlineModule "model" [Tree.aliasItem "Item" (Tree.namedType ["u8"])],
    Tree.inlineModule "wire"
      [Tree.renamingImport ["super", "model"] "Item" "Thing", Tree.plainTrait "Named" []]]

/-- The segments of `self::Thing<u8>`. -/
def thingPath : List Tree :=
  [Tree.absent, plainSegment "self", Tree.punct "::", .node .segment [Tree.ident "Thing",
    .node .genericArguments [Tree.absent, Tree.punct "<", Tree.namedType ["u8"], Tree.punct ">"]]]

/-- The segments of `<u8 as self::Named>::Value`, of which the last stands behind the `>`. -/
def namedPath : List Tree :=
  [Tree.absent, plainSegment "self", Tree.punct "::", plainSegment "Named", Tree.punct ">", Tree.punct "::",
    plainSegment "Value"]

/-- A renamed first name loses its arguments, and a qualified type ends in the middle of a longer trait path. -/
theorem rebase_loses :
    (∃ after, rebase (.ofItems "samples" placedItems) ["wire"] (.node .path thingPath) = .node .path after ∧
      (Tree.node .path after).names = ["super", "model", "Item"] ∧
      (Tree.node .path thingPath).segments.any Tree.hasArguments = true ∧
      (Tree.node .path after).segments.any Tree.hasArguments = false) ∧
    ∃ after, rebase (.ofItems "samples" placedItems) ["wire"] (.node .path namedPath) = .node .path after ∧
      (Tree.node .path after).names = ["super", "wire", "Named", "Value"] ∧
      ((Tree.node .path namedPath).names.take 2 = ["self", "Named"] ∧ enclosed namedPath = some 2) ∧
      (Tree.node .path after).names.take 2 = ["super", "wire"] ∧ enclosed after = some 2 :=
  ⟨⟨_, rfl, rfl, rfl, rfl⟩, _, rfl, rfl, ⟨rfl, rfl⟩, rfl, rfl⟩

end Import

end TestDouble
