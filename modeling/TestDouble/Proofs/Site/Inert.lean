import TestDouble.Proofs.Site.Binding
import TestDouble.Proofs.Source.WellFormed
import TestDouble.Proofs.Specification
import TestDouble.Proofs.Specification.Parts
/-!
# What binding leaves alone

Binding changes calls, calls of methods and the arguments of invocations only. The last segment of a
creation site that names a contract holds none of them, so a bound creation site keeps this segment as it is.
-/

namespace TestDouble

/-- The last segment of the path that a call calls. -/
def Call.last? (call : Call) : Option Tree :=
  match call.callee with
  | .node .pathExpr [_, path] => path.segments.getLast?
  | _ => none

namespace Tree

/-- A tree without calls, calls of methods and arguments of invocations. -/
inductive Inert : Tree → Prop where
  | token (t : Token) : Inert (.token t)
  | node {kind : Kind} {children : List Tree} (notArguments : kind ≠ .arguments) (notMethod : kind ≠ .methodCall)
      (notCall : kind ≠ .call) (below : ∀ child ∈ children, Inert child) : Inert (.node kind children)

theorem inert_of_isPlain {tree : Tree} (plain : tree.isPlain = true) (formed : tree.wellFormed = true) :
    tree.Inert := by
  unfold isPlain at plain
  split at plain
  · exact .token _
  · rename_i children
    have empty : children.isEmpty = true := wellFormed_fits formed
    rw [List.isEmpty_iff.mp empty]
    exact .node (by decide) (by decide) (by decide) (fun _ member => absurd member List.not_mem_nil)
  · cases plain

theorem inert_of_isPunct {text : String} {tree : Tree} (punct : tree.isPunct text = true) : tree.Inert := by
  obtain ⟨joint, rfl⟩ := token_of_isPunct punct
  exact .token _

/-- A list in which all but one element are separators. -/
theorem inert_of_separated {text : String} {trees : List Tree} {one : Tree}
    (only : trees.filter (fun tree => !tree.isPunct text) = [one]) (inert : one.Inert) :
    ∀ tree ∈ trees, tree.Inert := by
  intro tree member
  by_cases separator : tree.isPunct text = true
  · exact inert_of_isPunct separator
  · have kept : tree ∈ trees.filter (fun tree => !tree.isPunct text) :=
      List.mem_filter.mpr ⟨member, by simp [separator]⟩
    rw [only] at kept
    rw [List.mem_singleton.mp kept]
    exact inert

theorem inert_path {children : List Tree} (formed : (Tree.node .path children).wellFormed = true)
    (plain : (Tree.node .path children).segments.any hasArguments = false) : (Tree.node .path children).Inert := by
  refine .node (by decide) (by decide) (by decide) ?_
  intro part member
  have formedPart := wellFormed_child formed member
  have shape : isPath children = true := wellFormed_fits formed
  rcases Bool.or_eq_true_iff.mp (List.all_eq_true.mp shape part member) with leaf | segment
  · exact inert_of_isPlain leaf formedPart
  · have inside : part ∈ (Tree.node .path children).segments := List.mem_filter.mpr ⟨member, segment⟩
    have bare := List.any_eq_false.mp plain part inside
    cases part with
    | token t => exact .token t
    | node kind parts =>
        obtain rfl : kind = .segment := Option.some.inj (eq_of_beq segment)
        have parts : isSegment parts = true := wellFormed_fits formedPart
        unfold isSegment at parts
        split at parts
        · refine .node (by decide) (by decide) (by decide) ?_
          intro child own
          rw [List.mem_singleton.mp own]
          exact .token _
        · exact absurd rfl bare
        · exact absurd rfl bare
        · cases parts

theorem inert_name {name : Tree} {more : List Tree}
    (formed : (Tree.node .segment (name :: more)).wellFormed = true) : name.Inert := by
  have shape : isSegment (name :: more) = true := wellFormed_fits formed
  obtain ⟨word, rest, same⟩ := isSegment_shape shape
  cases same
  exact .token _

theorem inert_arguments {lead opening argument : Tree} {rest : List Tree}
    (formed : (Tree.node .genericArguments (lead :: opening :: rest)).wellFormed = true)
    (only : rest.dropLast.filter (fun tree => !tree.isPunct ",") = [argument]) (inert : argument.Inert) :
    (Tree.node .genericArguments (lead :: opening :: rest)).Inert := by
  have shape : isArguments (lead :: opening :: rest) = true := wellFormed_fits formed
  obtain ⟨front, closed⟩ := Bool.and_eq_true_iff.mp shape
  obtain ⟨leadPlain, openingPlain⟩ := Bool.and_eq_true_iff.mp front
  refine .node (by decide) (by decide) (by decide) ?_
  intro child member
  have inside := wellFormed_child formed member
  rcases List.mem_cons.mp member with rfl | member
  · exact inert_of_isPlain leadPlain inside
  · rcases List.mem_cons.mp member with rfl | member
    · exact inert_of_isPlain openingPlain inside
    · cases ends : rest.getLast? with
      | none =>
          rw [ends] at closed
          cases closed
      | some closing =>
          rw [ends] at closed
          obtain ⟨before, rfl⟩ := List.getLast?_eq_some_iff.mp ends
          rw [List.dropLast_concat] at only
          rcases List.mem_append.mp member with before | last
          · exact inert_of_separated only inert child before
          · rw [List.mem_singleton.mp last] at inside ⊢
            exact inert_of_isPlain closed inside

end Tree

namespace Specification

theorem inert_of_bare {type : Tree} (inert : (bare type).Inert) : type.Inert := by
  fun_induction bare type with
  | case1 inner ih =>
      refine .node (by decide) (by decide) (by decide) ?_
      intro group member
      rw [List.mem_singleton.mp member]
      refine .node (by decide) (by decide) (by decide) ?_
      intro part own
      rw [List.mem_singleton.mp own]
      exact ih inert
  | case2 type other => exact inert

theorem inert_boundParts {first second : List Tree} {path : Tree}
    (formed : ∀ part ∈ [.node .absent first, .node .absent second, path], part.wellFormed = true)
    (inert : path.wellFormed = true → path.Inert) :
    ∀ part ∈ [.node .absent first, .node .absent second, path], part.Inert := by
  intro part member
  have inside := formed part member
  rcases List.mem_cons.mp member with rfl | member
  · exact Tree.inert_of_isPlain rfl inside
  · rcases List.mem_cons.mp member with rfl | member
    · exact Tree.inert_of_isPlain rfl inside
    · rw [List.mem_singleton.mp member] at inside ⊢
      exact inert inside

theorem inert_of_plainBound? {bound path : Tree} (formed : bound.wellFormed = true)
    (found : plainBound? bound = some path) (inert : path.wellFormed = true → path.Inert) : bound.Inert := by
  unfold plainBound? at found
  split at found
  · cases found
    refine .node (by decide) (by decide) (by decide) ?_
    exact inert_boundParts (fun _ member => Tree.wellFormed_child formed member) inert
  · rename_i first second path
    cases found
    have group : (Tree.node (.group .paren) [.node .absent first, .node .absent second, path]).wellFormed = true :=
      Tree.wellFormed_child formed (by simp)
    refine .node (by decide) (by decide) (by decide) ?_
    intro part member
    rw [List.mem_singleton.mp member]
    refine .node (by decide) (by decide) (by decide) ?_
    exact inert_boundParts (fun _ member => Tree.wellFormed_child group member) inert
  · cases found

theorem path_of_contractOf {catalog : Catalog} {module place : ModulePath} {call : Call} {contract : TraitItem}
    (contracted : contractOf catalog module call = .ok (place, contract)) :
    ∃ path, contractPath call = .ok path ∧ path.segments.any Tree.hasArguments = false ∧ path.names ≠ [] := by
  obtain ⟨path, found, plain, resolved⟩ := contractOf_eq_ok contracted
  refine ⟨path, found, plain, fun empty => ?_⟩
  rw [empty] at resolved
  cases resolved

theorem path_of_names {path : Tree} (named : path.names ≠ []) : ∃ children, path = .node .path children := by
  unfold Tree.names Tree.segments at named
  split at named
  · exact ⟨_, rfl⟩
  · exact absurd rfl named

theorem inert_of_contractPath {marker : Call} {argument path : Tree} (formed : argument.wellFormed = true)
    (only : typeArguments? marker.callee = some [argument]) (found : contractPath marker = .ok path)
    (plain : path.segments.any Tree.hasArguments = false) (named : path.names ≠ []) : argument.Inert := by
  obtain ⟨names, rfl⟩ := path_of_names named
  apply inert_of_bare
  have bareFormed := Tree.wellFormed_part formed (bare_mem argument)
  unfold contractPath at found
  rw [only] at found
  simp only at found
  split at found
  · rename_i type
    cases found
    rw [type] at bareFormed ⊢
    refine .node (by decide) (by decide) (by decide) ?_
    intro child member
    rw [List.mem_singleton.mp member]
    exact Tree.inert_path (Tree.wellFormed_child bareFormed (by simp)) plain
  · rename_i head bounds type
    rw [type] at bareFormed ⊢
    split at found
    · rename_i one alone
      split at found
      · rename_i own bound
        cases found
        have member : one ∈ bounds := (List.mem_filter.mp (alone ▸ List.mem_singleton_self one)).1
        have oneFormed := Tree.wellFormed_child bareFormed (List.mem_cons_of_mem _ member)
        have oneInert := inert_of_plainBound? oneFormed bound fun formed => Tree.inert_path formed plain
        have headPlain : head.isPlain = true := Tree.wellFormed_fits bareFormed
        refine .node (by decide) (by decide) (by decide) ?_
        intro child own
        rcases List.mem_cons.mp own with rfl | own
        · exact Tree.inert_of_isPlain headPlain (Tree.wellFormed_child bareFormed List.mem_cons_self)
        · exact Tree.inert_of_separated alone oneInert child own
      · cases found
    · cases found
  · cases found

/-- The last segment of a creation site that names a contract is inert. -/
theorem inert_of_contractOf {catalog : Catalog} {module place : ModulePath} {call : Call}
    {contract : TraitItem} (formed : call.toTree.wellFormed = true)
    (contracted : contractOf catalog module call = .ok (place, contract)) {last : Tree}
    (ends : call.last? = some last) : last.Inert := by
  obtain ⟨path, found, plain, named⟩ := path_of_contractOf contracted
  -- a creation site without exactly one type argument names no contract
  have given : ∃ argument, typeArguments? call.callee = some [argument] := by
    unfold contractPath at found
    split at found
    · cases found
    · rename_i argument only
      exact ⟨argument, only⟩
    · cases found
  obtain ⟨argument, only⟩ := given
  have calleeFormed : call.callee.wellFormed = true := Tree.wellFormed_child formed (by simp)
  unfold Call.last? at ends
  split at ends
  · rename_i own called callee
    rw [callee] at calleeFormed
    have calledFormed : called.wellFormed = true := Tree.wellFormed_child calleeFormed (by simp)
    have lastFormed := Tree.wellFormed_part calledFormed (Tree.segments_subset _ (List.mem_of_getLast? ends))
    have listed := only
    rw [callee, typeArguments?, ends] at listed
    split at listed
    · rename_i name lead opening rest same
      cases same
      have separated := Option.some.inj listed
      have listFormed : (Tree.node .genericArguments (lead :: opening :: rest)).wellFormed = true :=
        Tree.wellFormed_child lastFormed (by simp)
      have argumentIn : argument ∈ rest :=
        List.dropLast_subset _ (List.mem_filter.mp (separated ▸ List.mem_singleton_self argument)).1
      have argumentFormed : argument.wellFormed = true :=
        Tree.wellFormed_child listFormed (List.mem_cons_of_mem _ (List.mem_cons_of_mem _ argumentIn))
      have argumentInert := inert_of_contractPath argumentFormed only found plain named
      refine .node (by decide) (by decide) (by decide) ?_
      intro part member
      rcases List.mem_cons.mp member with rfl | member
      · exact Tree.inert_name lastFormed
      · rw [List.mem_singleton.mp member]
        exact Tree.inert_arguments listFormed separated argumentInert
    · cases listed
  · cases ends

end Specification

theorem Binder.bind_inert {binder : Binder} {tree : Tree} (inert : tree.Inert) (place : Place) :
    binder.bind place tree = (tree, []) := by
  induction inert generalizing place with
  | token t => rfl
  | @node kind children notArguments notMethod notCall _ ih =>
      have same : children.map (binder.bind (place.inside binder.root (.node kind children))) =
          children.map fun child => (child, []) :=
        List.map_congr_left fun child member => ih child member _
      rw [bind_ordinary notArguments notMethod notCall, rebuilt, same]
      simp [List.map_map, Function.comp_def, List.flatMap_map]

end TestDouble
