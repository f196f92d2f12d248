import TestDouble.Proofs.Site.Binding
/-!
# The walk of binding

Binding walks down a tree and keeps track of the place where it stands. It does not go into what it takes
away, and of a creation site that it binds only into the attributes and the last segment that is called.
The problems it reports are exactly the creation sites it comes to outside of tests.
-/

namespace TestDouble

/-- A way down from a tree, by the numbers of the children on it. -/
abbrev Position := List Nat

namespace Binder

/-- A bound creation site keeps this segment, which is the last one of its path. -/
structure LastAt (children : List Tree) (index : Nat) (last : Tree) : Prop where
  member : children[index]? = some last
  segment : last.kind? = some .segment
  after : ∀ part ∈ children.drop (index + 1), part.kind? ≠ some .segment

/-- Binding a tree at a place comes to a part of it, at a position below it and at a place of its own. -/
inductive Visits (binder : Binder) : Place → Tree → Position → Place → Tree → Prop where
  | here (place : Place) (tree : Tree) : Visits binder place tree [] place tree
  | child {place inner : Place} {kind : Kind} {children : List Tree} {index : Nat} {part found : Tree}
      {position : Position} (whole : ¬binder.Erases place (.node kind children))
      (unbound : ¬binder.Binds place (.node kind children)) (member : children[index]? = some part)
      (below : Visits binder (place.inside binder.root (.node kind children)) part position inner found) :
      Visits binder place (.node kind children) (index :: position) inner found
  | attributes {place inner : Place} {attributes callee arguments found : Tree} {position : Position}
      (bound : binder.Binds place (.node .call [attributes, callee, arguments]))
      (below : Visits binder place attributes position inner found) :
      Visits binder place (.node .call [attributes, callee, arguments]) (0 :: position) inner found
  | last {place inner : Place} {attributes own arguments : Tree} {children : List Tree} {index : Nat}
      {last found : Tree} {position : Position}
      (bound : binder.Binds place
        (.node .call [attributes, .node .pathExpr [own, .node .path children], arguments]))
      (kept : LastAt children index last) (below : Visits binder place last position inner found) :
      Visits binder place (.node .call [attributes, .node .pathExpr [own, .node .path children], arguments])
        (1 :: 1 :: index :: position) inner found

variable {binder : Binder}

theorem LastAt.getLast? {children : List Tree} {index : Nat} {last : Tree} (kept : LastAt children index last) :
    (Tree.node .path children).segments.getLast? = some last := by
  have inside : index < children.length := (List.getElem?_eq_some_iff.mp kept.member).1
  have split : children = children.take index ++ last :: children.drop (index + 1) := by
    have own := (List.getElem?_eq_some_iff.mp kept.member).2
    rw [← own, List.getElem_cons_drop, List.take_append_drop]
  have none : (children.drop (index + 1)).filter (fun part => part.kind? == some .segment) = [] := by
    apply List.filter_eq_nil_iff.mpr
    intro part member
    simpa using kept.after part member
  have own : [last].filter (fun part => part.kind? == some .segment) = [last] := by
    simp [kept.segment]
  show (children.filter fun part => part.kind? == some .segment).getLast? = some last
  rw [split, ← List.singleton_append, List.filter_append, List.filter_append, own, none, List.append_nil,
    List.getLast?_concat]

theorem exists_lastAt {children : List Tree} {last : Tree}
    (ends : (Tree.node .path children).segments.getLast? = some last) :
    ∃ index, LastAt children index last := by
  obtain ⟨front, same⟩ := List.getLast?_eq_some_iff.mp ends
  obtain ⟨before, rest, rfl, -, final⟩ := List.filter_eq_append_iff.mp same
  obtain ⟨gap, behind, rfl, -, segment, none⟩ := List.filter_eq_cons_iff.mp final
  refine ⟨(before ++ gap).length, ?_, eq_of_beq segment, ?_⟩
  · rw [← List.append_assoc, List.getElem?_append_right (Nat.le_refl _), Nat.sub_self]
    rfl
  · rw [← List.append_assoc, List.drop_length_add_append]
    intro part member
    simpa using List.filter_eq_nil_iff.mp none part member

/-- A segment of the path that a call calls is smaller than the call. -/
theorem size_called {attributes own arguments segment : Tree} {children : List Tree} (inside : segment ∈ children) :
    segment.size <
      (Tree.node .call [attributes, .node .pathExpr [own, .node .path children], arguments]).size :=
  calc segment.size
    _ < (Tree.node .path children).size := Tree.size_child inside
    _ < (Tree.node .pathExpr [own, .node .path children]).size := Tree.size_child (by simp)
    _ < _ := Tree.size_child (by simp)

/-- A creation site outside of tests to which binding comes is reported. -/
theorem stray_reported {place inner : Place} {tree found : Tree} {position : Position}
    (visited : Visits binder place tree position inner found) (stray : binder.Strays inner found) :
    Problem.noSpecification (inner.key binder.root) ∈ (binder.bind place tree).2 := by
  induction visited with
  | here place tree =>
      cases tree with
      | token t =>
          obtain ⟨call, viewed, _⟩ := stray.1
          cases viewed
      | node kind children =>
          obtain ⟨rfl, -⟩ := marks_call stray.1
          rw [bind_stray stray]
          exact List.mem_cons_self
  | child whole unbound member _ ih =>
      refine (mem_bind_kept whole unbound).mpr (.inr ?_)
      exact mem_rebuilt.mpr ⟨_, List.mem_of_getElem? member, ih stray⟩
  | attributes bound _ ih =>
      obtain ⟨key, own, children, last, _, _, _, _, same⟩ := bind_of_binds bound
      rw [same]
      exact List.mem_append_left _ (ih stray)
  | last bound kept _ ih =>
      obtain ⟨key, own, children, last, _, _, callee, ends, same⟩ := bind_of_binds bound
      cases callee
      rw [kept.getLast?] at ends
      cases ends
      rw [same]
      exact List.mem_append_right _ (ih stray)

/-- Every problem of binding is a creation site outside of tests to which it comes. -/
theorem reported_stray {place : Place} {tree : Tree} {problem : Problem}
    (reported : problem ∈ (binder.bind place tree).2) :
    ∃ position inner found, Visits binder place tree position inner found ∧ binder.Strays inner found ∧
      problem = .noSpecification (inner.key binder.root) := by
  -- the segment that a bound creation site keeps is no child of the call, so the size carries the induction
  induction size : tree.size using Nat.strongRecOn generalizing tree place with
  | ind bound ih =>
      cases tree with
      | token t => cases reported
      | node kind children =>
          by_cases erased : binder.Erases place (.node kind children)
          · rw [bind_erased erased] at reported
            cases reported
          · by_cases binds : binder.Binds place (.node kind children)
            · obtain ⟨rfl, attributes, callee, arguments, rfl, -⟩ := marks_call binds.1
              obtain ⟨key, own, segments, last, _, _, rfl, ends, same⟩ := bind_of_binds binds
              rw [same] at reported
              rcases List.mem_append.mp reported with front | kept
              · have smaller : attributes.size < bound := size ▸ Tree.size_child (by simp)
                obtain ⟨position, inner, found, below, stray⟩ := ih _ smaller front rfl
                exact ⟨0 :: position, inner, found, .attributes binds below, stray⟩
              · obtain ⟨index, lastAt⟩ := exists_lastAt ends
                have smaller : last.size < bound := size ▸ size_called (List.mem_of_getElem? lastAt.member)
                obtain ⟨position, inner, found, below, stray⟩ := ih _ smaller kept rfl
                exact ⟨1 :: 1 :: index :: position, inner, found, .last binds lastAt below, stray⟩
            · rcases (mem_bind_kept erased binds).mp reported with ⟨stray, own⟩ | below
              · exact ⟨[], place, _, .here place _, stray, own⟩
              · obtain ⟨child, member, inside⟩ := mem_rebuilt.mp below
                obtain ⟨index, found⟩ := List.getElem?_of_mem member
                have smaller : child.size < bound := size ▸ Tree.size_child member
                obtain ⟨position, inner, part, visited, stray⟩ := ih _ smaller inside rfl
                exact ⟨index :: position, inner, part, .child erased binds found visited, stray⟩

end Binder

end TestDouble
