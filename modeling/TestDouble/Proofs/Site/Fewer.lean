import TestDouble.Proofs.Site.Callee
import TestDouble.Proofs.Site.Clear
import TestDouble.Proofs.Site.Inert
/-!
# Binding leaves fewer names

Binding adds none of the names that the search looks for, and takes one away with each site. So it changes the
tokens of whatever it finds a site in, and the arguments of an invocation are kept as they were only if there
was no site in them.
-/

namespace TestDouble

namespace Tree

theorem inert_of_isStill {tree : Tree} (still : tree.isStill = true) : tree.Inert := by
  induction tree using Tree.byChildren with
  | token t => exact .token t
  | node kind children ih =>
      obtain ⟨other, below⟩ := Bool.and_eq_true_iff.mp still
      rw [isStillAll_eq_all, List.all_eq_true] at below
      refine .node ?_ ?_ ?_ fun child member => ih child member (below child member)
      all_goals
        rintro rfl
        cases other

theorem inert_of_isRaw {tree : Tree} (raw : tree.isRaw = true) : tree.Inert := by
  induction tree using Tree.byChildren with
  | token t => exact .token t
  | node kind children ih =>
      cases kind
      case group delimiter =>
        have below : isRawAll children = true := raw
        rw [isRawAll_eq_all, List.all_eq_true] at below
        exact .node (by simp) (by simp) (by simp) fun child member => ih child member (below child member)
      all_goals cases raw

theorem clear_of_inert {settings : Settings} {tree : Tree} (inert : tree.Inert) : Site.Clear settings tree := by
  induction inert with
  | token t => exact Site.clear_token t
  | node _ notMethod notCall _ ih => exact Site.clear_node (Site.ofNode_of_kind notCall notMethod) ih

end Tree

namespace Binder
open TestDouble.Tree Token

variable {binder : Binder}

theorem bind_alike (place : Place) (tree : Tree) : Alike (binder.bind place tree).1 tree := by
  cases tree with
  | token t => exact .token t
  | node kind children =>
      by_cases none : Tree.node kind children = absent
      · cases none
        exact .absent
      rcases bind_shape place kind children with ⟨other, news, remakes, same⟩ | same
      · rw [same]
        refine .node none fun opened => ?_
        cases remakes <;> cases opened
      · rw [same]
        exact .node none fun _ => rfl

/-! ### One site -/

section
variable (apart : binder.settings.Apart)
include apart

theorem erased_under {children : List Tree} (sound : (Tree.node .methodCall children).sound = true)
    (configuration : isConfiguration binder.settings (.node .methodCall children) = true) :
    Under binder.settings.owns unit.normal (Tree.node .methodCall children).normal := by
  have named : ∃ attributes receiver dot generics arguments, children =
      [attributes, receiver, dot, .token (.ident binder.settings.returns), generics, arguments] := by
    obtain ⟨call, inner, viewed, named, -⟩ := isConfiguration_iff.mp configuration
    obtain ⟨attributes, dot, generics, same⟩ := asMethodCall?_iff.mp viewed
    cases same
    exact ⟨_, _, _, _, _, by rw [← named]; rfl⟩
  obtain ⟨attributes, receiver, dot, generics, arguments, rfl⟩ := named
  have fluent := (normal_below apart.blank apart.condition sound).fluent
  have given : unit.normal.Fluent := (normal_below apart.blank apart.condition (rfl : unit.sound = true)).fluent
  have nothing : weight binder.settings.owns unit.normal = 0 := rfl
  have counted : weight binder.settings.owns (Tree.token (.ident binder.settings.returns)).normal = 1 := by
    simp [normal, weight, tokens, heads, Token.counted, Settings.owns]
  refine under_of_weight given fluent (normalNode_opens .methodCall _) rfl ?_
  rw [nothing, weight_normal apart.blank apart.condition sound rfl rfl (by decide) fun _ => rfl]
  simp only [List.map_cons, List.sum_cons, counted]
  omega

theorem bound_under {place : Place} {attributes callee arguments : Tree}
    (sound : (Tree.node .call [attributes, callee, arguments]).sound = true)
    (binds : binder.Binds place (.node .call [attributes, callee, arguments]))
    (below : ∀ part, part.size < (Tree.node .call [attributes, callee, arguments]).size → part.sound = true →
      Below binder.settings.owns (binder.bind place part).1.normal part.normal) :
    Under binder.settings.owns (binder.bind place (.node .call [attributes, callee, arguments])).1.normal
      (Tree.node .call [attributes, callee, arguments]).normal := by
  obtain ⟨⟨call, viewed, marker⟩, key, test, keyed⟩ := binds
  cases viewed
  obtain ⟨own, children, first, last, rfl, segments, named, -⟩ := Settings.isMarker_callee marker
  have start : (Tree.node .path children).isRootPath = false := by
    simp only [Settings.isMarker, Bool.and_eq_true, Bool.not_eq_true'] at marker
    exact marker.1
  have ends : (Tree.node .path children).segments.getLast? = some last := by
    rw [segments]
    rfl
  rw [bind_bound test keyed marker ends, normal_boundCall]
  obtain ⟨outer, called, path⟩ := sound_called sound
  have member := List.mem_filter.mp (List.mem_of_getLast? ends)
  have kind : last.kind? = some .segment := eq_of_beq member.2
  have segment := sound_segment path member.1 kind
  have opened : last.normal.opens = true := (normal_alike last).opens (opens_of_segment kind)
  have lower := below attributes (Tree.size_child (by simp)) outer
  have inner := below last (size_called member.1) segment
  have alone := inner.colons.trans ((normal_alike last).isColons.trans (isColons_of_sound segment))
  have apartFirst := lower.colons.trans ((normal_alike attributes).isColons.trans (isColons_of_sound outer))
  have bound := weight_boundCall apart inner.fluent (inner.opened opened) alone lower.fluent apartFirst place key
  have fluent := (normal_below apart.blank apart.condition sound).fluent
  refine under_of_weight bound.1 fluent (normalNode_opens .call _) rfl ?_
  have own : binder.settings.owns first.segmentName = true := by simp [Settings.owns, named]
  have names := weight_path path apart.blank apart.condition segments start own
  rw [bound.2, weight_normal apart.blank apart.condition sound rfl rfl (by decide) fun _ => rfl]
  simp only [List.map_cons, List.sum_cons]
  rw [weight_normal apart.blank apart.condition called rfl rfl (by decide) fun _ => rfl]
  simp only [List.map_cons, List.sum_cons, normal_path]
  have fewer := lower.le false (by simp)
  have kept := inner.le true fun _ => opened
  simp only [weight] at names ⊢
  omega

end

theorem mem_kept_zip {kind : Kind} {children : List Tree} {child : Tree} {new old : Tree → Tree}
    (member : child ∈ children) (visible : kind = .variant → (children.drop 1).head? ≠ some child) :
    (new child, old child) ∈ (kept kind (children.map new)).zip (kept kind (children.map old)) := by
  by_cases variant : kind = .variant
  · subst variant
    match children, member, visible rfl with
    | [only], member, _ =>
        obtain rfl := List.mem_singleton.mp member
        exact List.mem_singleton_self _
    | attributes :: visibility :: rest, member, other =>
        rcases List.mem_cons.mp member with rfl | member
        · exact List.mem_cons_self
        rcases List.mem_cons.mp member with rfl | member
        · exact absurd rfl other
        · show _ ∈ (_, _) :: (_, _) :: (rest.map new).zip (rest.map old)
          rw [List.zip_map']
          exact List.mem_cons_of_mem _ (List.mem_cons_of_mem _ (List.mem_map_of_mem member))
  · rw [kept_of_ne variant, kept_of_ne variant, List.zip_map']
    exact List.mem_map_of_mem member

/-! ### All of a tree -/

theorem inert_unread {children : List Tree} (sound : (Tree.node .unread children).sound = true) :
    (Tree.node .unread children).Inert := by
  have raw : isRawAll children = true := (Bool.and_eq_true_iff.mp (sound_parts sound).2.1).2
  rw [isRawAll_eq_all, List.all_eq_true] at raw
  exact .node (by decide) (by decide) (by decide) fun child member => inert_of_isRaw (raw child member)

theorem sound_arguments {children : List Tree} (sound : (Tree.node .arguments children).sound = true) :
    ∀ child ∈ children, child.sound = true := by
  have each := soundAll_children sound rfl rfl
  rwa [children_node, soundAll_eq_all, List.all_eq_true] at each

/-! ### What is put together again -/

theorem normal_kept {place : Place} {kind : Kind} {children : List Tree}
    (whole : ¬binder.Erases place (.node kind children)) (unbound : ¬binder.Binds place (.node kind children))
    (read : kind ≠ .unread) (other : kind ≠ .arguments) :
    (binder.bind place (.node kind children)).1.normal =
      normalNode kind (children.map fun child =>
        (binder.bind (place.inside binder.root (.node kind children)) child).1.normal) := by
  rw [bind_fst_kept whole unbound other, rebuilt, normal_node read other, List.map_map, List.map_map]
  rfl

theorem arranged_bound {kind : Kind} {children : List Tree} (sound : (Tree.node kind children).sound = true)
    (place : Place) : Arranged kind (children.map fun child => (binder.bind place child).1.normal) :=
  (arranged_of_sound sound).map fun child _ => (normal_alike _).trans (bind_alike place child)

theorem pairs_below {place : Place} {children : List Tree}
    (below : ∀ child ∈ children, Below binder.settings.owns (binder.bind place child).1.normal child.normal) :
    List.Forall₂ (Below binder.settings.owns)
      (children.map fun child => (binder.bind place child).1.normal) (children.map normal) := by
  rw [List.forall₂_map_left_iff, List.forall₂_map_right_iff, List.forall₂_same]
  exact below

/-- That binding does not leave out the sites of a tree: in a test, and with its key if there is a creation site. -/
structure Reached (binder : Binder) (place : Place) (tree : Tree) : Prop where
  test : place.inTest = true
  keyed : ∀ call, Site.marker call ∈ Site.ofTree binder.settings tree →
    ∃ key, place.function = some (key, true) ∧ key ∈ binder.keys

section
variable {place : Place} {kind : Kind} {children : List Tree} (reached : binder.Reached place (.node kind children))
  (free : Site.isItem kind = false)
include reached free

theorem Reached.child {child : Tree} (member : child ∈ children) : binder.Reached place child where
  test := reached.test
  keyed call found := by
    refine reached.keyed call ?_
    rw [Site.ofTree, if_neg (by simp [free]), Site.ofTrees_eq_flatMap]
    exact List.mem_append_right _ (List.mem_flatMap.mpr ⟨child, member, found⟩)

/-- What is neither taken away nor bound is no site. -/
theorem Reached.ofNode (whole : ¬binder.Erases place (.node kind children))
    (unbound : ¬binder.Binds place (.node kind children)) :
    Site.ofNode binder.settings (.node kind children) = none := by
  refine Site.ofNode_eq_none.mpr ⟨Bool.eq_false_iff.mpr fun marks => ?_, Bool.eq_false_iff.mpr fun configured => ?_⟩
  · obtain ⟨call, viewed, marker⟩ := marks_iff.mp marks
    refine unbound ⟨⟨call, viewed, marker⟩, reached.keyed call ?_⟩
    rw [Site.ofTree, if_neg (by simp [free])]
    exact List.mem_append_left _ (Site.mem_ofNode.mpr ⟨marker, Call.asCall?_iff.mp viewed⟩)
  · exact whole ⟨congrArg some (kind_of_isConfiguration configured), reached.test, configured⟩

end

/-- What an invocation is given, written in canonical form after binding, against what it was before. -/
theorem canonical_below {place : Place} {children : List Tree} {before : Tree → Tree}
    (below : ∀ child ∈ children, Below binder.settings.owns (binder.bind place child).1.normal child.normal)
    (upper : ∀ child ∈ children, Below binder.settings.owns child.normal (before child)) :
    List.Forall₂ (Below binder.settings.owns)
      (canonicalAll ((children.map (binder.bind place)).map (·.1))) (children.map before) := by
  simp only [canonicalAll, List.map_map, List.forall₂_map_left_iff, List.forall₂_map_right_iff, List.forall₂_same]
  intro child member
  exact ((canonical_level (below child member).fluent).1.trans (below child member)).trans (upper child member)

theorem canonical_under {place : Place} {children : List Tree} {before : Tree → Tree} {child : Tree}
    (member : child ∈ children)
    (under : Under binder.settings.owns (binder.bind place child).1.normal child.normal)
    (upper : ∀ child ∈ children, Below binder.settings.owns child.normal (before child)) :
    ∃ pair ∈ (canonicalAll ((children.map (binder.bind place)).map (·.1))).zip (children.map before),
      Under binder.settings.owns pair.1 pair.2 := by
  refine ⟨((binder.bind place child).1.canonical, before child), ?_, ?_⟩
  · simp only [canonicalAll, List.map_map, List.zip_map']
    exact List.mem_map_of_mem member
  · exact Under.of_upper (canonical_level under.fluent).1 (under.of_lower (upper child member))

section
variable (apart : binder.settings.Apart)
include apart

theorem arguments_below {place : Place} {children : List Tree} (sound : (Tree.node .arguments children).sound = true)
    (below : ∀ child ∈ children, Below binder.settings.owns (binder.bind place child).1.normal child.normal) :
    Below binder.settings.owns (binder.bind place (.node .arguments children)).1.normal
      (Tree.node .arguments children).normal := by
  rw [bind_arguments]
  unfold invocationArguments
  dsimp only
  split
  · exact .refl (normal_below apart.blank apart.condition sound).fluent
  · have parts : List.Forall₂ _ _ (children.map id) := canonical_below below fun child member =>
      normal_below apart.blank apart.condition (sound_arguments sound child member)
    rw [List.map_id] at parts
    exact Below.node parts (arranged_of_sound sound).flow

/-- The arguments of an invocation stay as they were only if nothing is found in them. -/
theorem arguments_under {place : Place} {children : List Tree} (sound : (Tree.node .arguments children).sound = true)
    (below : ∀ child ∈ children, Below binder.settings.owns (binder.bind place child).1.normal child.normal)
    {child : Tree} (member : child ∈ children)
    (under : Under binder.settings.owns (binder.bind place child).1.normal child.normal) :
    Under binder.settings.owns (binder.bind place (.node .arguments children)).1.normal
      (Tree.node .arguments children).normal := by
  have normal : ∀ child ∈ children, Below binder.settings.owns child.normal child := fun child member =>
    normal_below apart.blank apart.condition (sound_arguments sound child member)
  have flow := (arranged_of_sound sound).flow
  rw [bind_arguments]
  unfold invocationArguments
  dsimp only
  split
  · -- then the canonical forms would have as many of the names as before
    rename_i same
    have upper : ∀ child ∈ children, Below binder.settings.owns child.normal child.canonical :=
      fun child member => (canonical_level (normal child member).fluent).2
    have canonical : List.Forall₂ (Below binder.settings.owns) (children.map Tree.canonical) children := by
      rw [List.forall₂_map_left_iff, List.forall₂_same]
      exact fun child member => (canonical_level (normal child member).fluent).1.trans (normal child member)
    have lt := heads_under (canonical_below below upper) (flows_below canonical flow) (canonical_under member under upper)
    rw [same] at lt
    exact absurd lt (Nat.lt_irrefl _)
  · have parts : List.Forall₂ _ _ (children.map id) := canonical_below below normal
    have fewer : ∃ pair ∈ List.zip _ (children.map id), _ := canonical_under member under normal
    rw [List.map_id] at parts fewer
    exact Under.node parts flow fewer

theorem bind_below {tree : Tree} (sound : tree.sound = true) (place : Place) :
    Below binder.settings.owns (binder.bind place tree).1.normal tree.normal := by
  -- the segment that a bound creation site keeps is no child of the call, so the size carries the induction
  induction size : tree.size using Nat.strongRecOn generalizing tree place with
  | ind bound ih =>
      cases tree with
      | token t => exact .refl (.token t)
      | node kind children =>
          by_cases erased : binder.Erases place (.node kind children)
          · rw [bind_erased erased]
            obtain ⟨method, -, configuration⟩ := erased
            cases method
            exact (erased_under apart sound configuration).toBelow
          by_cases binds : binder.Binds place (.node kind children)
          · obtain ⟨rfl, attributes, callee, arguments, rfl, -⟩ := marks_call binds.1
            refine (bound_under apart sound binds fun part smaller inside => ?_).toBelow
            exact ih _ (size ▸ smaller) inside place rfl
          by_cases unread : kind = .unread
          · subst unread
            rw [bind_inert (inert_unread sound)]
            exact .refl (normal_below apart.blank apart.condition sound).fluent
          have each : ∀ child ∈ children, ∀ place,
              Below binder.settings.owns (binder.bind place child).1.normal child.normal := by
            intro child member place
            rcases (sound_parts sound).2.2 child member with inside | ⟨-, colons⟩
            · exact ih _ (size ▸ Tree.size_child member) inside place rfl
            · obtain ⟨joint, rfl⟩ := tokens_of_isColons colons
              exact .refl (.token _)
          by_cases arguments : kind = .arguments
          · subst arguments
            exact arguments_below apart sound fun child member => each child member place
          · rw [normal_kept erased binds unread arguments, normal_node unread arguments]
            exact normalNode_below apart.blank apart.condition (pairs_below fun child member => each child member _)
              (arranged_bound sound _) ((arranged_of_sound sound).map fun child _ => normal_alike child)

theorem child_below {kind : Kind} {children : List Tree} (sound : (Tree.node kind children).sound = true)
    {child : Tree} (member : child ∈ children) (place : Place) :
    Below binder.settings.owns (binder.bind place child).1.normal child.normal := by
  rcases (sound_parts sound).2.2 child member with inside | ⟨-, colons⟩
  · exact bind_below apart inside place
  · obtain ⟨joint, rfl⟩ := tokens_of_isColons colons
    exact .refl (.token _)

/-- Binding changes what it finds a site in. -/
theorem bind_under {place : Place} {tree : Tree} (sound : tree.sound = true) (reached : binder.Reached place tree)
    (found : ¬Site.Clear binder.settings tree) :
    Under binder.settings.owns (binder.bind place tree).1.normal tree.normal := by
  induction tree using Tree.byChildren with
  | token t => exact absurd (Site.clear_token t) found
  | node kind children ih =>
      by_cases erased : binder.Erases place (.node kind children)
      · rw [bind_erased erased]
        obtain ⟨method, -, configuration⟩ := erased
        cases method
        exact erased_under apart sound configuration
      by_cases binds : binder.Binds place (.node kind children)
      · obtain ⟨rfl, attributes, callee, arguments, rfl, -⟩ := marks_call binds.1
        exact bound_under apart sound binds fun part _ inside => bind_below apart inside place
      by_cases unread : kind = .unread
      · subst unread
        exact absurd (clear_of_inert (inert_unread sound)) found
      have free : Site.isItem kind = false :=
        Bool.eq_false_iff.mpr fun item => found (Site.clear_of_item item)
      have nothing := reached.ofNode free erased binds
      obtain ⟨child, member, inside⟩ : ∃ child ∈ children, ¬Site.Clear binder.settings child := by
        by_contra none
        exact found (Site.clear_node nothing fun child member =>
          Classical.byContradiction fun inside => none ⟨child, member, inside⟩)
      have formed : child.sound = true := by
        rcases (sound_parts sound).2.2 child member with own | ⟨-, colons⟩
        · exact own
        · obtain ⟨joint, rfl⟩ := tokens_of_isColons colons
          exact absurd (Site.clear_token _) inside
      have under := ih child member formed (reached.child free member) inside
      have below : ∀ child ∈ children, Below binder.settings.owns (binder.bind place child).1.normal child.normal :=
        fun child member => child_below apart sound member place
      by_cases arguments : kind = .arguments
      · subst arguments
        exact arguments_under apart sound below member under
      · rw [normal_kept erased binds unread arguments, normal_node unread arguments, Place.inside_of_not_item free]
        refine normalNode_under apart.blank apart.condition (pairs_below below) (arranged_bound sound _)
          ((arranged_of_sound sound).map fun child _ => normal_alike child) ?_
        refine ⟨_, mem_kept_zip member ?_, under⟩
        rintro rfl second
        have still : headIs isStill (children.drop 1) = true := (sound_parts sound).2.1
        rw [headIs, second] at still
        exact inside (clear_of_inert (inert_of_isStill still))

end

end Binder

end TestDouble
