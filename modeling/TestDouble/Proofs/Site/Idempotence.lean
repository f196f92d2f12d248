import TestDouble.Proofs.Settings
import TestDouble.Proofs.Site.Settled
import TestDouble.Proofs.Source.Reading
/-!
# Binding twice

Binding leaves a settled module behind: a second time it takes nothing away, binds nothing and changes no
token, and it reports what it reported before. The problems come in another order only if the arguments of an
invocation were written anew, which moves lifetime parameters to the front, with what their attributes hold.
-/

namespace TestDouble

namespace Settings

/-- That no lifetime parameter in a tree holds a creation site. -/
def Unburdened (settings : Settings) (tree : Tree) : Prop :=
  ∀ part ∈ tree.subtrees, part.isLifetime = true → ∀ site ∈ part.subtrees, settings.marks site = false

/-- That no lifetime parameter in the arguments of an invocation holds a creation site. -/
def Orderly (settings : Settings) (tree : Tree) : Prop :=
  ∀ given ∈ tree.subtrees, given.kind? = some .arguments → settings.Unburdened given

variable {settings : Settings} {tree part : Tree}

instance : Decidable (settings.Unburdened tree) :=
  inferInstanceAs (Decidable (∀ part ∈ tree.subtrees, part.isLifetime = true →
    ∀ site ∈ part.subtrees, settings.marks site = false))

instance : Decidable (settings.Orderly tree) :=
  inferInstanceAs (Decidable (∀ given ∈ tree.subtrees, given.kind? = some .arguments → settings.Unburdened given))

theorem Unburdened.inner (free : settings.Unburdened tree) (inside : part ∈ tree.subtrees) : settings.Unburdened part :=
  fun _ deeper => free _ (Tree.subtrees_trans inside deeper)

theorem Orderly.inner (orderly : settings.Orderly tree) (inside : part ∈ tree.subtrees) : settings.Orderly part :=
  fun _ deeper => orderly _ (Tree.subtrees_trans inside deeper)

end Settings

namespace Tree

variable {kind : Kind} {children : List Tree}

theorem mem_subtrees_called {attributes own arguments segment : Tree} (member : segment ∈ children) :
    segment ∈ (node .call [attributes, node .pathExpr [own, node .path children], arguments]).subtrees := by
  have path : segment ∈ (node .path children).subtrees := mem_subtrees_child member
  have callee : segment ∈ (node .pathExpr [own, node .path children]).subtrees := subtrees_child (by simp) path
  exact subtrees_child (by simp) callee

theorem spare_map (rewritten : Tree → Tree) (kind : Kind) (children : List Tree) :
    spare kind (children.map rewritten) = (spare kind children).map rewritten := by
  cases kind
  case generics =>
    simp only [spare, List.length_map]
    split <;> rfl
  case bounds | whereClause => rcases children with _ | ⟨_, _ | ⟨_, _⟩⟩ <;> rfl
  case callArguments => rcases children with _ | ⟨_, _⟩ <;> rfl
  case variant => rcases children with _ | ⟨_, _ | ⟨_, _⟩⟩ <;> rfl
  case field => rcases children with _ | ⟨_, _ | ⟨_, _ | ⟨_, _ | ⟨_, _ | ⟨_, _⟩⟩⟩⟩⟩ <;> rfl
  all_goals rfl

theorem mem_of_spare {part : Tree} (member : part ∈ spare kind children) : part ∈ children := by
  unfold spare at member
  split at member
  · split at member
    · exact member
    · cases member
  all_goals simp_all

theorem inert_of_isMark {tree : Tree} (mark : tree.isMark = true) : tree.Inert := by
  unfold isMark at mark
  split at mark
  · exact .token _
  · exact .node (by decide) (by decide) (by decide) (by simp)
  · cases mark

theorem inert_of_isKeyword {text : String} {tree : Tree} (word : Parse.isKeyword text tree = true) : tree.Inert := by
  unfold Parse.isKeyword at word
  split at word
  · exact .token _
  · cases word

/-- What canonical form may leave out or write more than once holds no calls. -/
theorem inert_spare (sound : (node kind children).sound = true) : ∀ part ∈ spare kind children, part.Inert := by
  obtain ⟨-, joint, -⟩ := sound_parts sound
  intro part member
  unfold spare at member
  split at member
  · split at member
    · -- one mark, or an opening and a closing one
      rename_i short
      obtain ⟨opens, closes⟩ := Bool.and_eq_true_iff.mp joint
      match children, short with
      | [], _ => cases member
      | [one], _ =>
          cases List.mem_singleton.mp member
          exact inert_of_isMark opens
      | [first, second], _ =>
          rcases List.mem_pair.mp member with rfl | rfl
          · exact inert_of_isMark opens
          · exact inert_of_isMark closes
    · cases member
  · cases List.mem_singleton.mp member
    exact inert_of_isMark joint
  · cases List.mem_singleton.mp member
    exact inert_of_isKeyword joint
  · cases List.mem_singleton.mp member
    have shape : isParenthesized _ = true := joint
    unfold isParenthesized at shape
    split at shape
    · rename_i same
      cases same
      simp only [Bool.and_eq_true] at shape
      exact inert_of_isMark shape.1.1
    · cases shape
  · cases List.mem_singleton.mp member
    exact inert_of_isMark joint
  · cases List.mem_singleton.mp member
    exact inert_of_isStill joint
  · cases member

theorem isLifetime_iff {tree : Tree} :
    tree.isLifetime = true ↔ tree.kind? = some .lifetime ∨ tree.kind? = some .lifetimeParameter := by
  unfold isLifetime
  split
  · simp
  · simp
  · rename_i other lifetime parameter
    cases tree with
    | token t => simp [kind?]
    | node kind children =>
        simp only [kind?_node, Option.some.injEq, Bool.false_eq_true, false_iff, not_or]
        exact ⟨fun same => lifetime children (same ▸ rfl), fun same => parameter children (same ▸ rfl)⟩

theorem normalNode_isLifetime (kind : Kind) (children : List Tree) :
    (normalNode kind children).isLifetime = (node kind children).isLifetime := by
  fun_cases normalNode kind children
  all_goals rfl

theorem isLifetime_normal (tree : Tree) : tree.normal.isLifetime = tree.isLifetime := by
  cases tree with
  | token t => rfl
  | node kind children =>
      by_cases unread : kind = .unread
      · subst unread
        rfl
      by_cases arguments : kind = .arguments
      · subst arguments
        rfl
      rw [normal_node unread arguments, normalNode_isLifetime]
      cases kind <;> rfl

end Tree

namespace Binder
open TestDouble.Tree

variable {binder : Binder} {place : Place} {kind : Kind} {children : List Tree} {ordered : Prop} {tree : Tree}

theorem isLifetime_bind (tree : Tree) : (binder.bind place tree).1.isLifetime = tree.isLifetime := by
  rw [Bool.eq_iff_iff, isLifetime_iff, isLifetime_iff, kind?_bind_iff rfl, kind?_bind_iff rfl]

/-- Binding finds no problem where nothing is a creation site. -/
theorem problems_of_unmarked (none : ∀ part ∈ tree.subtrees, binder.settings.marks part = false) :
    (binder.bind place tree).2 = [] := by
  induction tree using Tree.byChildren generalizing place with
  | token t => rfl
  | node kind children ih =>
      by_cases erased : binder.Erases place (.node kind children)
      · rw [bind_erased erased]
      have own := none _ (mem_subtrees_self _)
      by_cases binds : binder.Binds place (.node kind children)
      · rw [marks_iff.mpr binds.1] at own
        cases own
      · rw [problems_kept erased binds, ownProblems, own, List.append_eq_nil_iff, List.flatMap_eq_nil_iff]
        exact ⟨rfl, fun child member => ih child member fun part inside => none part (subtrees_child member inside)⟩

/-! ### Bound creation sites -/

theorem settled_joinedSegments {last : Tree} (own : binder.Settled place last) (names : List String) : (∀ part ∈ joinedSegments names last, binder.Settled place part) ∧
      (joinedSegments names last).flatMap (fun part => (binder.bind place part).2) = (binder.bind place last).2 := by
  induction names with
  | nil => exact ⟨List.forall_mem_singleton.mpr own, List.append_nil _⟩
  | cons name rest ih =>
      rw [joinedSegments_cons]
      have segment : binder.Settled place (.node .segment [ident name]) := rfl
      have colons : binder.Settled place (punct "::") := rfl
      exact ⟨List.forall_mem_cons.mpr ⟨segment, List.forall_mem_cons.mpr ⟨colons, ih.1⟩⟩, ih.2⟩

/-- A bound creation site is none any more. -/
theorem settled_boundCall (apart : binder.settings.Apart) {attributes last : Tree} (outer : binder.Settled place attributes)
    (own : binder.Settled place last) (path : Place) (key : String) :
    binder.Settled place (binder.boundCall path key attributes last) ∧
      (binder.bind place (binder.boundCall path key attributes last)).2 =
        (binder.bind place attributes).2 ++ (binder.bind place last).2 := by
  obtain ⟨start, rest, -, same⟩ := binder.callee_eq path
  obtain ⟨segments, problems⟩ := settled_joinedSegments own (start :: rest)
  have called : binder.Settled place (binder.callee path last) ∧
      (binder.bind place (binder.callee path last)).2 = (binder.bind place last).2 := by
    rw [same]
    simp (disch := decide) only [settled_plain apart, problems_plain, List.forall_mem_cons, List.flatMap_cons,
      List.flatMap_nil, List.append_nil, problems]
    exact ⟨⟨by simp, ⟨rfl, segments⟩, by simp⟩, rfl⟩
  have given : binder.Settled place (group .paren
      [.node .literal [.node .attributes [], .token (.literal (Text.stringLiteral key))]]) := rfl
  have whole : ¬binder.Erases place (binder.boundCall path key attributes last) := fun erased => nomatch erased.1
  have unbound : ¬binder.Binds place (binder.boundCall path key attributes last) := by
    intro binds
    have marks := marks_iff.mpr binds.1
    rw [marks_boundCall apart] at marks
    cases marks
  constructor
  · refine (settled_iff apart (by decide)).mpr ⟨whole, unbound, ?_⟩
    exact List.forall_mem_cons.mpr ⟨outer, List.forall_mem_cons.mpr ⟨called.1, List.forall_mem_singleton.mpr given⟩⟩
  · have none : binder.ownProblems place (binder.boundCall path key attributes last) = [] := by
      rw [ownProblems, marks_boundCall apart]
      rfl
    have literal : (binder.bind place (group .paren
        [.node .literal [.node .attributes [], .token (.literal (Text.stringLiteral key))]])).2 = [] := rfl
    rw [boundCall, problems_kept whole unbound, ← boundCall, none, List.nil_append, boundCall, inside_call]
    simp only [List.flatMap_cons, List.flatMap_nil, called.2, literal, List.append_nil]

/-! ### Binding a second time -/

/--
What binding makes of a tree is settled, and so is the canonical form of that. Neither has other problems than
the tree; canonical form keeps their order as well if no lifetime parameter holds a creation site.
-/
structure Again (binder : Binder) (ordered : Prop) (place : Place) (tree : Tree) : Prop where
  bound : binder.Replaces ordered place (binder.bind place tree).2 (binder.bind place tree).1 tree
  canonical : (ordered → binder.settings.Unburdened tree) →
    binder.Replaces ordered place (binder.bind place (binder.bind place tree).1).2 (binder.bind place tree).1.normal
      (binder.bind place tree).1

/-- What has no problems has none in canonical form. -/
theorem Again.silent (again : binder.Again ordered place tree) (free : ordered → binder.settings.Unburdened tree)
    (none : (binder.bind place tree).2 = []) : (binder.bind place (binder.bind place tree).1.normal).2 = [] := by
  have first := again.bound.problems
  have second := (again.canonical free).problems
  rw [none] at first
  rw [first.eq_nil] at second
  exact second.eq_nil

theorem replaces_bound (settled : binder.Settled place (binder.bind place tree).1)
    (problems : SameProblems ordered (binder.bind place (binder.bind place tree).1).2 (binder.bind place tree).2) :
    binder.Replaces ordered place (binder.bind place tree).2 (binder.bind place tree).1 tree :=
  ⟨bind_shows tree place, bind_mirrors tree place, settled, problems⟩

/-- What canonical form leaves alone stays settled. -/
theorem again_of_normal (same : (binder.bind place tree).1.normal = (binder.bind place tree).1)
    (settled : binder.Settled place (binder.bind place tree).1)
    (problems : SameProblems ordered (binder.bind place (binder.bind place tree).1).2 (binder.bind place tree).2) :
    binder.Again ordered place tree where
  bound := replaces_bound settled problems
  canonical _ := by
    rw [same]
    exact ⟨.refl _, .refl _, settled, .of_eq rfl⟩

theorem again_erased (erased : binder.Erases place tree) : binder.Again ordered place tree := by
  have bound := bind_erased erased
  refine again_of_normal ?_ ?_ (.of_eq ?_)
  all_goals
    rw [bound]
    rfl

section
variable (apart : binder.settings.Apart)
include apart

theorem again_bound {attributes callee arguments : Tree}
    (binds : binder.Binds place (.node .call [attributes, callee, arguments]))
    (below : ∀ part, part ∈ (Tree.node .call [attributes, callee, arguments]).subtrees →
      part.size < (Tree.node .call [attributes, callee, arguments]).size → part.sound = true →
      binder.Again ordered place part)
    (sound : (Tree.node .call [attributes, callee, arguments]).sound = true) :
    binder.Again ordered place (.node .call [attributes, callee, arguments]) := by
  obtain ⟨key, own, children, last, -, -, rfl, ends, bound⟩ := bind_of_binds binds
  have member := List.mem_filter.mp (List.mem_of_getLast? ends)
  obtain ⟨outerSound, -, path⟩ := sound_called sound
  have outer := below attributes (mem_subtrees_child (by simp)) (Tree.size_child (by simp)) outerSound
  have inside : last ∈ (Tree.node .call [attributes, .node .pathExpr [own, .node .path children], arguments]).subtrees :=
    mem_subtrees_called member.1
  have inner := below last inside (size_called member.1) (sound_segment path member.1 (eq_of_beq member.2))
  have settled := settled_boundCall apart outer.bound.settled inner.bound.settled place key
  constructor
  · refine replaces_bound ?_ ?_
    · rw [bound]
      exact settled.1
    · rw [bound, settled.2]
      exact .append outer.bound.problems inner.bound.problems
  · intro free
    have first := outer.canonical fun asked => (free asked).inner (mem_subtrees_child (by simp))
    have second := inner.canonical fun asked => (free asked).inner inside
    have again := settled_boundCall apart first.settled second.settled place key
    refine ⟨normal_shows _, normal_mirrors _, ?_, ?_⟩
    · rw [bound, normal_boundCall]
      exact again.1
    · rw [bound, normal_boundCall, again.2, settled.2]
      exact .append first.problems second.problems

theorem again_arguments (below : ∀ child ∈ children, binder.Again ordered place child)
    (free : ordered → binder.settings.Unburdened (.node .arguments children)) :
    binder.Again ordered place (.node .arguments children) := by
  have bound : binder.bind place (.node .arguments children) = _ := bind_arguments place children
  unfold invocationArguments at bound
  dsimp only at bound
  split at bound
  · have fixed : (binder.bind place (.node .arguments children)).1 = .node .arguments children := by rw [bound]
    refine again_of_normal ?_ ?_ (.of_eq ?_)
    · rw [fixed]
      rfl
    · rw [Settled, fixed]
      exact fixed
    · rw [fixed]
  · have each : ∀ child ∈ children, binder.Settled place (binder.bind place child).1.canonical ∧
        SameProblems ordered (binder.bind place (binder.bind place child).1.canonical).2 (binder.bind place child).2 := by
      intro child member
      have own := (below child member).canonical fun asked => (free asked).inner (mem_subtrees_child member)
      have enclosed : _ ∧ SameProblems ordered _ _ := enclosed_settled apart own.settled .free
      exact ⟨enclosed.1, (enclosed.2.trans own.problems).trans (below child member).bound.problems⟩
    have news : canonicalAll ((children.map (binder.bind place)).map (·.1)) =
        children.map fun child => (binder.bind place child).1.canonical := by
      rw [canonicalAll, List.map_map, List.map_map]
      rfl
    rw [news] at bound
    have fixed : (children.map fun child => (binder.bind place child).1.canonical).map
        (fun child => (binder.bind place child).1) =
          children.map fun child => (binder.bind place child).1.canonical := by
      rw [List.map_map]
      exact List.map_congr_left fun child member => (each child member).1
    refine again_of_normal ?_ ?_ ?_
    · rw [bound]
      rfl
    · rw [Settled, bound, bind_arguments, List.map_map]
      exact (congrArg (invocationArguments _) fixed).trans (if_pos rfl)
    · rw [bound, bind_arguments, List.flatMap_map, List.flatMap_map, List.flatMap_map]
      exact .flatMap (List.forall₂_same.mpr fun child member => (each child member).2)

section
variable (other : kind ≠ .arguments) (read : kind ≠ .unread) (sound : (Tree.node kind children).sound = true)
  (below : ∀ child ∈ children, binder.Again ordered (place.inside binder.root (.node kind children)) child)
include other read sound below

/-- The canonical form of a node that is put together again from its bound children. -/
theorem canonical_kept (free : ordered → binder.settings.Unburdened (.node kind children)) {news : List Tree}
    (same : news = children.map fun child => (binder.bind (place.inside binder.root (.node kind children)) child).1)
    (inside : place.inside binder.root (.node kind news) = place.inside binder.root (.node kind children))
    (still : ¬binder.Erases place (.node kind news)) (apartFrom : ¬binder.Binds place (.node kind news)) :
    binder.Settled place (Tree.node kind news).normal ∧
      SameProblems ordered (binder.bind place (Tree.node kind news).normal).2 (binder.bind place (.node kind news)).2 := by
  have normals : List.Forall₂ (fun new old => binder.Replaces ordered (place.inside binder.root (.node kind news))
      (binder.bind (place.inside binder.root (.node kind news)) old).2 new old) (news.map normal) news := by
    rw [inside, List.forall₂_map_left_iff, List.forall₂_same, same]
    exact List.forall_mem_map.mpr fun child member =>
      (below child member).canonical fun asked => (free asked).inner (mem_subtrees_child member)
  obtain ⟨-, -, settled, problems⟩ := settled_of_pairs apart other still apartFrom normals
  rw [← problems_kept still apartFrom] at problems
  have within : place.inside binder.root (.node kind (news.map normal)) = place.inside binder.root (.node kind children) :=
    (inside_of_mirrors (normals.imp fun _ _ replaces => replaces.mirrors) _ _ _).trans inside
  have silent : ∀ child ∈ children, (binder.bind (place.inside binder.root (.node kind children)) child).2 = [] →
      (binder.bind (place.inside binder.root (.node kind children))
        (binder.bind (place.inside binder.root (.node kind children)) child).1.normal).2 = [] :=
    fun child member => (below child member).silent fun asked => (free asked).inner (mem_subtrees_child member)
  have left : ∀ part ∈ spare kind (news.map normal),
      (binder.bind (place.inside binder.root (.node kind children)) part).2 = [] := by
    rw [same, spare_map, spare_map, List.map_map]
    refine List.forall_mem_map.mpr fun part member => silent part (mem_of_spare member) ?_
    rw [bind_inert (inert_spare sound part member)]
  have order : ordered → ∀ part ∈ news.map normal, part.isLifetime = true →
      (binder.bind (place.inside binder.root (.node kind children)) part).2 = [] := by
    intro asked
    rw [same, List.map_map]
    refine List.forall_mem_map.mpr fun child member lifetime => silent child member (problems_of_unmarked ?_)
    rw [Function.comp_apply, isLifetime_normal, isLifetime_bind] at lifetime
    exact free asked child (mem_subtrees_child member) lifetime
  rw [← within] at left order
  obtain ⟨last, found⟩ := normalNode_settled apart settled left order
  rw [normal_node read other]
  exact ⟨last, found.trans problems⟩

theorem again_kept (whole : ¬binder.Erases place (.node kind children))
    (unbound : ¬binder.Binds place (.node kind children)) : binder.Again ordered place (.node kind children) := by
  let inner := place.inside binder.root (.node kind children)
  let news := children.map fun child => (binder.bind inner child).1
  have bound : (binder.bind place (.node kind children)).1 = .node kind news := by
    rw [bind_fst_kept whole unbound other, rebuilt, List.map_map]
    rfl
  have pairs : List.Forall₂ (fun new old => binder.Replaces ordered inner (binder.bind inner old).2 new old) news children :=
    List.forall₂_map_left_iff.mpr (List.forall₂_same.mpr fun child member => (below child member).bound)
  obtain ⟨still, free, settled, problems⟩ := settled_of_pairs apart other whole unbound pairs
  rw [← problems_kept whole unbound] at problems
  constructor
  · refine replaces_bound ?_ ?_
    · rw [bound]
      exact settled
    · rw [bound]
      exact problems
  · intro unburdened
    have same := inside_of_mirrors (pairs.imp fun _ _ replaces => replaces.mirrors) binder.root place kind
    rw [bound]
    obtain ⟨last, found⟩ := canonical_kept apart other read sound below unburdened rfl same still free
    exact ⟨normal_shows _, normal_mirrors _, last, found⟩

end

/-- Binding a second time changes nothing and finds the same problems. -/
theorem bind_again (sound : tree.sound = true) (orderly : ordered → binder.settings.Orderly tree) (place : Place) :
    binder.Again ordered place tree := by
  -- the segment that a bound creation site keeps is no child of the call, so the size carries the induction
  induction size : tree.size using Nat.strongRecOn generalizing tree place with
  | ind bound ih =>
      cases tree with
      | token t => exact again_of_normal rfl rfl (.of_eq rfl)
      | node kind children =>
          by_cases erased : binder.Erases place (.node kind children)
          · exact again_erased erased
          by_cases binds : binder.Binds place (.node kind children)
          · obtain ⟨rfl, attributes, callee, arguments, rfl, -⟩ := marks_call binds.1
            refine again_bound apart binds (fun part inside smaller own => ?_) sound
            exact ih _ (size ▸ smaller) own (fun asked => (orderly asked).inner inside) place rfl
          by_cases unread : kind = .unread
          · subst unread
            have same : binder.bind place (.node .unread children) = _ := bind_inert (inert_unread sound) place
            refine again_of_normal ?_ ?_ (.of_eq ?_)
            · rw [same]
              rfl
            · rw [Settled, same, same]
            · rw [same, same]
          have each : ∀ child ∈ children, ∀ place, binder.Again ordered place child := by
            intro child member place
            rcases (sound_parts sound).2.2 child member with inside | ⟨-, colons⟩
            · exact ih _ (size ▸ Tree.size_child member) inside
                (fun asked => (orderly asked).inner (mem_subtrees_child member)) place rfl
            · obtain ⟨joint, rfl⟩ := tokens_of_isColons colons
              exact again_of_normal rfl rfl (.of_eq rfl)
          by_cases arguments : kind = .arguments
          · subst arguments
            exact again_arguments apart (fun child member => each child member place) fun asked =>
              orderly asked _ (mem_subtrees_self _) rfl
          · exact again_kept apart arguments unread sound (fun child member => each child member _) erased binds

end

end Binder

open TestDouble.Tree

theorem bindSites_elsewhere (settings : Settings) (keys : List String) {module : Tree}
    (elsewhere : ∀ root items, module.asModule? ≠ some ⟨root, some items⟩) :
    bindSites settings keys module = (module, []) := by
  unfold bindSites
  split
  · rename_i root inner items
    exact absurd rfl (elsewhere root items)
  · rfl

/--
Binding is idempotent, for all settings that an annotation gives, every module and every set of keys: binding the
creation sites of a module that was bound before leaves it as it is, token by token, and finds the same problems.
They come in the same order if no lifetime parameter in the arguments of an invocation holds a creation site.
-/
theorem bindSites_again {settings : Settings} {arguments text : String} {module : Tree}
    (asked : Settings.read arguments = .ok settings) (read : readModule text = some module) (keys : List String) :
    let first := bindSites settings keys module
    let second := bindSites settings keys first.1
    second.1 = first.1 ∧ second.1.tokens = first.1.tokens ∧ second.2.Perm first.2 ∧
      (settings.Orderly module → second.2 = first.2) := by
  intro first second
  suffices again : second.1 = first.1 ∧ SameProblems (settings.Orderly module) second.2 first.2 from
    ⟨again.1, congrArg Tree.tokens again.1, again.2.perm, again.2.same⟩
  by_cases inline : ∃ root items, module.asModule? = some ⟨root, some items⟩
  · obtain ⟨root, items, found⟩ := inline
    have sound := soundAll_content (sound_readModule read) found
    rw [soundAll_eq_all, List.all_eq_true] at sound
    obtain ⟨attributes, visibility, unsafety, word, inner, shape⟩ := inline_module_shape found
    let binder : Binder := { settings, root, keys }
    have each : ∀ item ∈ items, binder.Again (settings.Orderly module) ⟨[], none⟩ item := by
      intro item member
      have held : item ∈ (group .brace (inner :: items)).subtrees :=
        mem_subtrees_child (List.mem_cons_of_mem _ member)
      have inside : item ∈ module.subtrees := shape ▸ subtrees_child (by simp) held
      exact Binder.bind_again (Settings.named_of_read asked).apart (sound item member)
        (fun orderly => orderly.inner inside) _
    have bound : first = _ := shape ▸ bindSites_inline settings keys attributes visibility unsafety word inner root items
    have again : second = bindSites settings keys first.1 := rfl
    rw [bound, bindSites_inline] at again
    rw [again, bound, List.map_map, List.flatMap_map]
    constructor
    · have fixed : items.map ((fun item => (binder.bind ⟨[], none⟩ item).1) ∘ fun item => (binder.bind ⟨[], none⟩ item).1) =
          items.map fun item => (binder.bind ⟨[], none⟩ item).1 :=
        List.map_congr_left fun item member => (each item member).bound.settled
      rw [fixed]
    · exact .flatMap (List.forall₂_same.mpr fun item member => (each item member).bound.problems)
  · have elsewhere : ∀ root items, module.asModule? ≠ some ⟨root, some items⟩ :=
      fun root items found => inline ⟨root, items, found⟩
    have bound : first = (module, []) := bindSites_elsewhere settings keys elsewhere
    have again : second = bindSites settings keys first.1 := rfl
    rw [bound, bindSites_elsewhere settings keys elsewhere] at again
    rw [again, bound]
    exact ⟨rfl, .of_eq rfl⟩

/-- A creation site in a helper, and a test with a site and a configuration in what an invocation is given. -/
def helperSites : String :=
  "mod a \x7b fn build() \x7b Ghost::of::<dyn I>(); \x7d " ++
  "#[test] fn t() \x7b assert!(Ghost::of::<dyn I>(), [x.m().returns(1)]); \x7d \x7d"

theorem bindSites_again_helper :
    ∃ settings module, Settings.read "" = .ok settings ∧ readModule helperSites = some module ∧
      let first := bindSites settings ["a::t"] module
      let second := bindSites settings ["a::t"] first.1
      first.1.tokens ≠ module.tokens ∧ first.2 = [.noSpecification "a::build"] ∧
        second.1.tokens = first.1.tokens ∧ second.2 = first.2 := by
  have asked : Settings.read "" = .ok {} := by decide +kernel
  have changed : ((readModule helperSites).map fun module =>
      decide (Settings.Orderly {} module ∧ (bindSites {} ["a::t"] module).1.tokens ≠ module.tokens ∧
        (bindSites {} ["a::t"] module).2 = [.noSpecification "a::build"])) = some true := by
    decide +kernel
  obtain ⟨module, read, holds⟩ := Option.map_eq_some_iff.mp changed
  obtain ⟨orderly, other, reported⟩ := of_decide_eq_true holds
  obtain ⟨-, tokens, -, problems⟩ := bindSites_again asked read ["a::t"]
  exact ⟨{}, module, asked, read, other, reported, tokens, problems orderly⟩

/--
A test that configures a method in what an invocation is given, next to a function with two parameters in angle
brackets. The lifetime parameter stands last, and a function with a creation site stands in its attribute.
-/
def burdenedLifetime : String :=
  "mod a \x7b #[test] fn t() \x7b m!(x.m().returns(1), \x7b fn f<" ++
  "const N: usize = \x7b fn g() \x7b Ghost::of::<dyn I>(); \x7d 1 \x7d, " ++
  "#[doc = \x7b fn h() \x7b Ghost::of::<dyn I>(); \x7d 2 \x7d] 'l>() \x7b\x7d \x7d); \x7d \x7d"

theorem bindSites_reorders :
    ∃ module, readModule burdenedLifetime = some module ∧
      let first := bindSites {} [] module
      let second := bindSites {} [] first.1
      first.2 = [.noSpecification "a::g", .noSpecification "a::h"] ∧
        second.2 = [.noSpecification "a::h", .noSpecification "a::g"] ∧ second.2 ≠ first.2 := by
  have reported : ((readModule burdenedLifetime).map fun module =>
      let first := bindSites {} [] module
      (first.2, (bindSites {} [] first.1).2)) = some
        ([.noSpecification "a::g", .noSpecification "a::h"], [.noSpecification "a::h", .noSpecification "a::g"]) := by
    decide +kernel
  obtain ⟨module, read, both⟩ := Option.map_eq_some_iff.mp reported
  obtain ⟨first, second⟩ := Prod.mk.inj both
  refine ⟨module, read, first, second, ?_⟩
  rw [first, second]
  decide

end TestDouble
