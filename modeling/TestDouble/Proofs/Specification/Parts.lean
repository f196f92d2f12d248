import Mathlib.Data.List.Infix
import TestDouble.Proofs.Source.Parts
import TestDouble.Specification
/-!
# What an analysis takes from a tree

The paths in a tree, the values of the constants declared in it, and the path of the trait that a creation site
names all stand inside the tree that they are taken from.
-/

namespace TestDouble

open TestDouble.Tree

theorem Import.paths_subset (tree : Tree) : paths tree ⊆ tree.subtrees := by
  induction tree using Tree.byChildren with
  | token t => exact List.nil_subset _
  | node kind children ih =>
      have below : pathsAll children ⊆ (Tree.node kind children).subtrees := by
        intro path member
        rw [pathsAll_eq_flatMap] at member
        obtain ⟨child, inside, own⟩ := List.mem_flatMap.mp member
        exact subtrees_child inside (ih child inside own)
      intro path member
      unfold paths at member
      split at member
      · cases member
      · cases member
      · rename_i same
        cases same
        rcases List.mem_cons.mp member with rfl | later
        · exact mem_subtrees_self _
        · exact below later
      · rename_i same
        cases same
        exact below member

theorem ConstScope.declared_subset (tree : Tree) : (declared tree).map Prod.snd ⊆ tree.subtrees := by
  induction tree using Tree.byChildren with
  | token t => exact List.nil_subset _
  | node kind children ih =>
      rintro _ member
      obtain ⟨⟨name, value⟩, entered, rfl⟩ := List.mem_map.mp member
      unfold declared at entered
      split at entered
      · cases entered
      · cases entered
      · cases entered
      · cases entered
      · rename_i same
        cases same
        rcases List.mem_append.mp entered with own | later
        · exact constant?_mem (Option.mem_toList.mp own)
        · rw [declaredAll_eq_flatMap] at later
          obtain ⟨child, inside, below⟩ := List.mem_flatMap.mp later
          exact subtrees_child inside (ih child inside (List.mem_map_of_mem below))

namespace Specification

theorem bare_mem (type : Tree) : bare type ∈ type.subtrees := by
  fun_induction bare type with
  | case1 inner ih =>
      have inParens : bare inner ∈ (Tree.node (.group .paren) [inner]).subtrees := subtrees_child List.mem_cons_self ih
      exact subtrees_child List.mem_cons_self inParens
  | case2 type other => exact mem_subtrees_self type

theorem plainBound?_mem {bound path : Tree} (found : plainBound? bound = some path) : path ∈ bound.subtrees := by
  unfold plainBound? at found
  split at found
  · cases found
    exact mem_subtrees_child (by simp)
  · rename_i first second path
    cases found
    have inParens : path ∈ (Tree.node (.group .paren) [.node .absent first, .node .absent second, path]).subtrees :=
      mem_subtrees_child (by simp)
    exact subtrees_child List.mem_cons_self inParens
  · cases found

theorem typeArguments?_subset {callee : Tree} {arguments : List Tree}
    (found : typeArguments? callee = some arguments) : arguments ⊆ callee.subtrees := by
  intro argument member
  unfold typeArguments? at found
  split at found
  · rename_i path
    split at found
    · rename_i lead opening closing rest last
      cases found
      have listed := List.mem_of_mem_dropLast (List.mem_filter.mp member).1
      have inList : argument ∈ (Tree.node .genericArguments (opening :: closing :: rest)).subtrees :=
        mem_subtrees_child (by simp [listed])
      have inSegment : argument ∈
          (Tree.node .segment [lead, .node .genericArguments (opening :: closing :: rest)]).subtrees :=
        subtrees_child (by simp) inList
      exact subtrees_child (by simp) (subtrees_trans (segments_subset _ (List.mem_of_getLast? last)) inSegment)
    · cases found
  · cases found

theorem contractPath_mem {marker : Call} {path : Tree} (named : contractPath marker = .ok path) :
    path ∈ marker.callee.subtrees := by
  unfold contractPath at named
  split at named
  · cases named
  · rename_i argument types
    refine subtrees_trans (typeArguments?_subset types List.mem_cons_self) (subtrees_trans (bare_mem argument) ?_)
    split at named
    · rename_i type
      cases named
      rw [type]
      exact mem_subtrees_child List.mem_cons_self
    · rename_i head bounds type
      rw [type]
      split at named
      · rename_i one alone
        split at named
        · rename_i found
          cases named
          have own : one ∈ bounds.filter fun t => !t.isPunct "+" := alone ▸ List.mem_cons_self
          exact subtrees_child (List.mem_cons_of_mem head (List.mem_filter.mp own).1) (plainBound?_mem found)
        · cases named
      · cases named
    · cases named
  · cases named

end Specification

end TestDouble
