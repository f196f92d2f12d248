import TestDouble.Proofs.Site.Fewer
/-!
# Binding leaves no sites

In a test whose creation sites have a key, nothing is found in what binding makes of a tree. A bound creation
site calls a longer path than a creation site does, and what is put together again shows a search only what it
showed before. The arguments of an invocation stay as they were only if nothing was found in them.
-/

namespace TestDouble

namespace Binder
open TestDouble.Tree Token

variable {binder : Binder}

/-- Binding makes nothing that a search would take for a site from the node around. -/
theorem bind_shows (tree : Tree) (place : Place) : Shows (binder.bind place tree).1 tree := by
  induction tree using Tree.byChildren generalizing place with
  | token t => exact .token t
  | node kind children ih =>
      rcases bind_shape place kind children with ⟨other, news, remakes, same⟩ | same
      · rw [same]
        cases remakes <;> exact .hidden (by decide) rfl
      · rw [same]
        refine .node id (fun _ => rfl) fun _ => ?_
        rw [List.map_map, List.forall₂_map_left_iff, List.forall₂_same]
        exact fun child member => ih child member _

theorem clear_unit (settings : Settings) : Site.Clear settings unit := rfl

theorem clear_joinedSegments {settings : Settings} {last : Tree} (clear : Site.Clear settings last)
    (names : List String) : ∀ part ∈ joinedSegments names last, Site.Clear settings part := by
  induction names with
  | nil => exact List.forall_mem_singleton.mpr clear
  | cons name rest ih =>
      rw [joinedSegments_cons]
      refine List.forall_mem_cons.mpr ⟨?_, List.forall_mem_cons.mpr ⟨Site.clear_token _, ih⟩⟩
      exact Site.clear_node (Site.ofNode_of_kind (by decide) (by decide)) (List.forall_mem_singleton.mpr (Site.clear_token _))

/-- The path of a bound creation site starts with a word of the language. -/
theorem marks_boundCall (apart : binder.settings.Apart) (place : Place) (key : String) (attributes last : Tree) :
    binder.settings.marks (binder.boundCall place key attributes last) = false := by
  obtain ⟨start, rest, word, same⟩ := binder.callee_eq place
  have other : binder.settings.owns start = false := by
    rcases word with rfl | rfl
    · exact apart.here
    · exact apart.above
  have names : ∃ more, (Tree.node .path (absent :: joinedSegments (start :: rest) last)).names = start :: more := by
    rw [joinedSegments_cons]
    exact ⟨_, rfl⟩
  obtain ⟨more, starts⟩ := names
  have differs : start ≠ binder.settings.dispatcher := by
    rintro rfl
    simp [Settings.owns] at other
  simp [Settings.marks, boundCall, asCall?, Settings.isMarker, same, starts, differs]

theorem clear_boundCall (apart : binder.settings.Apart) {place : Place} {key : String} {attributes last : Tree}
    (outer : Site.Clear binder.settings attributes) (clear : Site.Clear binder.settings last) :
    Site.Clear binder.settings (binder.boundCall place key attributes last) := by
  obtain ⟨start, rest, -, same⟩ := binder.callee_eq place
  have path : Site.Clear binder.settings (.node .path (absent :: joinedSegments (start :: rest) last)) :=
    Site.clear_node (Site.ofNode_of_kind (by decide) (by decide))
      (List.forall_mem_cons.mpr ⟨rfl, clear_joinedSegments clear _⟩)
  have called : Site.Clear binder.settings (binder.callee place last) := by
    rw [same]
    exact Site.clear_node (Site.ofNode_of_kind (by decide) (by decide))
      (List.forall_mem_cons.mpr ⟨rfl, List.forall_mem_singleton.mpr path⟩)
  refine Site.clear_node (Site.ofNode_eq_none.mpr ⟨marks_boundCall apart place key attributes last, rfl⟩) ?_
  exact List.forall_mem_cons.mpr ⟨outer, List.forall_mem_cons.mpr ⟨called, List.forall_mem_singleton.mpr rfl⟩⟩

/-- Nothing is found in a bound creation site if nothing is in what it keeps: its attributes and its last segment. -/
theorem clear_bound (apart : binder.settings.Apart) {place : Place} {attributes callee arguments : Tree}
    (sound : (Tree.node .call [attributes, callee, arguments]).sound = true)
    (reached : binder.Reached place (.node .call [attributes, callee, arguments]))
    (binds : binder.Binds place (.node .call [attributes, callee, arguments]))
    (below : ∀ part, part.size < (Tree.node .call [attributes, callee, arguments]).size → part.sound = true →
      binder.Reached place part → Site.Clear binder.settings (binder.bind place part).1) :
    Site.Clear binder.settings (binder.bind place (.node .call [attributes, callee, arguments])).1 := by
  obtain ⟨key, own, segments, last, -, -, rfl, ends, same⟩ := bind_of_binds binds
  rw [same]
  obtain ⟨outer, -, path⟩ := sound_called sound
  have member := List.mem_filter.mp (List.mem_of_getLast? ends)
  have segment := sound_segment path member.1 (eq_of_beq member.2)
  have toAttributes : binder.Reached place attributes := reached.child rfl (by simp)
  have toCallee : binder.Reached place (.node .pathExpr [own, .node .path segments]) := reached.child rfl (by simp)
  have toPath : binder.Reached place (.node .path segments) := toCallee.child rfl (by simp)
  refine clear_boundCall apart (below _ (Tree.size_child (by simp)) outer toAttributes) ?_
  exact below _ (size_called member.1) segment (toPath.child rfl member.1)

/-- Binding leaves nothing that is found in a test. -/
theorem bind_clear (apart : binder.settings.Apart) {tree : Tree} (sound : tree.sound = true) {place : Place}
    (reached : binder.Reached place tree) : Site.Clear binder.settings (binder.bind place tree).1 := by
  -- the segment that a bound creation site keeps is no child of the call, so the size carries the induction
  induction size : tree.size using Nat.strongRecOn generalizing tree with
  | ind bound ih =>
      cases tree with
      | token t => exact Site.clear_token t
      | node kind children =>
          by_cases erased : binder.Erases place (.node kind children)
          · rw [bind_erased erased]
            exact clear_unit _
          by_cases binds : binder.Binds place (.node kind children)
          · obtain ⟨rfl, attributes, callee, arguments, rfl, -⟩ := marks_call binds.1
            exact clear_bound apart sound reached binds fun part smaller inside toPart =>
              ih _ (size ▸ smaller) inside toPart rfl
          by_cases item : Site.isItem kind = true
          · rw [bind_ordinary]
            · exact Site.clear_of_item item
            all_goals
              rintro rfl
              cases item
          have free : Site.isItem kind = false := Bool.eq_false_iff.mpr item
          have each : ∀ child ∈ children, Site.Clear binder.settings (binder.bind place child).1 := by
            intro child member
            rcases (sound_parts sound).2.2 child member with inside | ⟨-, colons⟩
            · exact ih _ (size ▸ Tree.size_child member) inside (reached.child free member) rfl
            · obtain ⟨joint, rfl⟩ := tokens_of_isColons colons
              exact Site.clear_token _
          by_cases arguments : kind = .arguments
          · subst arguments
            have same := congrArg Prod.fst (@bind_arguments binder place children)
            unfold invocationArguments at same
            dsimp only at same
            split at same
            · -- what binding finds a site in does not stay as it was
              refine Classical.byContradiction fun found => ?_
              rw [same] at found
              have under := bind_under apart sound reached found
              rw [same] at under
              exact absurd (under.lt false (by simp)) (Nat.lt_irrefl _)
            · rw [same]
              refine Site.clear_node (Site.ofNode_of_kind (by decide) (by decide)) ?_
              rw [canonicalAll, List.map_map, List.map_map]
              exact List.forall_mem_map.mpr fun child member => Site.clear_canonical (each child member)
          · rw [bind_fst_kept erased binds arguments, rebuilt, Place.inside_of_not_item free, List.map_map]
            refine Site.clear_node ?_ (List.forall_mem_map.mpr each)
            refine Site.ofNode_of_shows ?_ (reached.ofNode free erased binds)
            rw [List.forall₂_map_left_iff, List.forall₂_same]
            exact fun child _ => bind_shows child place

end Binder

end TestDouble
