import TestDouble.Proofs.Catalog.Bound
/-!
# What binding and canonical form leave where they are

Binding and canonical form may take one node for another, but not among those that tell where a walk stands and
what a creation site calls: paths, attributes, signatures and items. These they leave in place, each with as many
children as before. So a walk comes to the same places afterwards, and finds the same creation sites there.
-/

namespace TestDouble

namespace Tree

/-- The kinds of nodes that tell where a walk stands and what is called. -/
def isGuide : Kind → Bool
  | .pathExpr | .path | .segment | .attributes | .attr | .group _ | .signature => true
  | _ => false

/-- That two trees agree on all that stands where a walk may be guided by it. -/
inductive Mirrors : Tree → Tree → Prop where
  | token (t : Token) : Mirrors (.token t) (.token t)
  | node {kind other : Kind} {news olds : List Tree} (same : (isGuide kind || isGuide other) = true → kind = other)
      (below : isGuide kind = true → List.Forall₂ Mirrors news olds) : Mirrors (.node kind news) (.node other olds)

namespace Mirrors

theorem refl (tree : Tree) : Mirrors tree tree := by
  induction tree using Tree.byChildren with
  | token t => exact .token t
  | node kind children ih => exact .node (fun _ => rfl) fun _ => List.forall₂_same.mpr ih

theorem symm {new old : Tree} (mirrors : Mirrors new old) : Mirrors old new := by
  induction old using Tree.byChildren generalizing new with
  | token t =>
      cases mirrors
      exact .token t
  | node other olds ih =>
      cases mirrors with
      | @node kind _ news _ same below =>
          refine .node (fun guide => (same (by rwa [Bool.or_comm])).symm) fun guide => ?_
          obtain rfl := same (by rw [guide, Bool.or_true])
          have pairs := below guide
          clear below same
          induction pairs with
          | nil => exact .nil
          | cons first _ rest =>
              obtain ⟨own, later⟩ := List.forall_mem_cons.mp ih
              exact .cons (own first) (rest later)

/-- Nodes of other kinds may take one another's place. -/
theorem other {kind other : Kind} {news olds : List Tree} (new : isGuide kind = false) (old : isGuide other = false) :
    Mirrors (.node kind news) (.node other olds) := by
  refine .node (fun guide => ?_) fun guide => ?_
  · rw [new, old] at guide
    cases guide
  · rw [new] at guide
    cases guide

section
variable {new old : Tree} {news olds : List Tree} {kind : Kind}

theorem of_node (mirrors : Mirrors (.node kind news) old) (guide : isGuide kind = true) :
    ∃ olds, old = .node kind olds ∧ List.Forall₂ Mirrors news olds := by
  cases mirrors with
  | node same below =>
      cases same (by rw [guide, Bool.true_or])
      exact ⟨_, rfl, below guide⟩

theorem of_token {t : Token} (mirrors : Mirrors (.token t) old) : old = .token t := by
  cases mirrors
  rfl

theorem kind?_iff (mirrors : Mirrors new old) (guide : isGuide kind = true) :
    new.kind? = some kind ↔ old.kind? = some kind := by
  cases mirrors with
  | token t => rfl
  | @node kind other news olds same below =>
      simp only [kind?_node, Option.some.injEq]
      constructor
      · rintro rfl
        exact (same (by rw [guide, Bool.true_or])).symm
      · rintro rfl
        exact same (by rw [guide, Bool.or_true])

theorem isPunct (mirrors : Mirrors new old) (text : String) : new.isPunct text = old.isPunct text := by
  cases mirrors <;> rfl

theorem segmentName (mirrors : Mirrors new old) (segment : new.kind? = some .segment) :
    new.segmentName = old.segmentName := by
  cases new with
  | token t => cases segment
  | node kind news =>
      cases segment
      obtain ⟨olds, rfl, pairs⟩ := mirrors.of_node rfl
      cases pairs with
      | nil => rfl
      | cons first rest =>
          cases first with
          | token t => cases t <;> rfl
          | node _ _ => rfl

theorem names (mirrors : Mirrors new old) : new.names = old.names := by
  by_cases path : new.kind? = some .path
  · cases new with
    | token t => cases path
    | node kind news =>
        cases path
        obtain ⟨olds, rfl, pairs⟩ := mirrors.of_node rfl
        show (news.filter _).map Tree.segmentName = (olds.filter _).map Tree.segmentName
        clear mirrors
        induction pairs with
        | nil => rfl
        | @cons first second news olds head _ ih =>
            have segment : (first.kind? == some .segment) = (second.kind? == some .segment) := by
              rw [Bool.eq_iff_iff, beq_iff_eq, beq_iff_eq]
              exact head.kind?_iff rfl
            rw [List.filter_cons, List.filter_cons, ← segment]
            split
            · rename_i isSegment
              rw [List.map_cons, List.map_cons, ih, head.segmentName (eq_of_beq isSegment)]
            · exact ih
  · have none : ∀ tree : Tree, tree.kind? ≠ some .path → tree.names = [] := by
      intro tree other
      unfold Tree.names segments
      split
      · exact absurd rfl other
      · rfl
    rw [none new path, none old (mt (mirrors.kind?_iff rfl).mpr path)]

/-! ### Creation sites -/

theorem isMarker {settings : Settings} {attributes own arguments given : Tree} (mirrors : Mirrors new old) :
    settings.isMarker ⟨attributes, new, arguments⟩ = true → settings.isMarker ⟨own, old, given⟩ = true := by
  intro marker
  obtain ⟨outer, children, -, -, same, -⟩ := Settings.isMarker_callee marker
  obtain rfl : new = .node .pathExpr [outer, .node .path children] := same
  obtain ⟨_, rfl, pairs⟩ := mirrors.of_node rfl
  rcases pairs with _ | ⟨_, _ | ⟨path, _ | _⟩⟩
  obtain ⟨others, rfl, parts⟩ := path.of_node rfl
  have root : (Tree.node .path children).isRootPath = (Tree.node .path others).isRootPath := by
    cases parts with
    | nil => rfl
    | cons first _ => exact first.isPunct "::"
  simpa [Settings.isMarker, path.names, root] using marker

/-! ### Functions -/

theorem attributePath? (mirrors : Mirrors new old) {path : Tree} (found : new.attributePath? = some path) :
    ∃ other, old.attributePath? = some other ∧ Mirrors path other := by
  obtain ⟨mark, inner, rest, rfl⟩ := attributePath?_iff.mp found
  obtain ⟨_, rfl, pairs⟩ := mirrors.of_node rfl
  rcases pairs with _ | ⟨_, _ | ⟨_, _ | ⟨group, _ | _⟩⟩⟩
  obtain ⟨_, rfl, content⟩ := group.of_node rfl
  cases content with
  | cons first _ => exact ⟨_, rfl, first⟩

theorem isTest_of_pairs {news olds : List Tree} (pairs : List.Forall₂ Mirrors news olds)
    (signature body signed braced : Tree) :
    Catalog.isTest ⟨news, signature, body⟩ = true → Catalog.isTest ⟨olds, signed, braced⟩ = true := by
  unfold Catalog.isTest
  induction pairs with
  | nil => exact id
  | @cons first second news olds head _ ih =>
      simp only [List.any_cons, Bool.or_eq_true]
      refine Or.imp (fun named => ?_) ih
      cases found : first.attributePath? with
      | none =>
          rw [found] at named
          cases named
      | some path =>
          obtain ⟨other, same, mirrored⟩ := head.attributePath? found
          rw [found] at named
          rw [same]
          dsimp only at named ⊢
          rwa [← mirrored.names]

theorem asSignature? (mirrors : Mirrors new old) {view : Signature} (found : new.asSignature? = some view) :
    ∃ other, old.asSignature? = some other ∧ other.name = view.name := by
  unfold Tree.asSignature? at found
  split at found
  · cases found
    obtain ⟨_, rfl, pairs⟩ := mirrors.of_node rfl
    rcases pairs with _ | ⟨_, _ | ⟨_, _ | ⟨_, _ | ⟨_, _ | ⟨_, _ | ⟨name, _ | ⟨_, _ | ⟨_, _ | ⟨_, _ | ⟨_, _ | _⟩⟩⟩⟩⟩⟩⟩⟩⟩⟩
    cases name.of_token
    exact ⟨_, rfl, rfl⟩
  · cases found

theorem signatureName (mirrors : Mirrors new old) : new.signatureName = old.signatureName := by
  unfold Tree.signatureName
  cases found : new.asSignature? with
  | some view =>
      obtain ⟨other, same, named⟩ := mirrors.asSignature? found
      rw [same, Option.map_some, Option.map_some, named]
  | none =>
      cases other : old.asSignature? with
      | none => rfl
      | some view =>
          obtain ⟨_, same, -⟩ := mirrors.symm.asSignature? other
          cases found.symm.trans same

theorem innerAttributes (mirrors : Mirrors new old) : List.Forall₂ Mirrors new.innerAttributes old.innerAttributes := by
  have one : ∀ {new old : Tree} {attributes rest : List Tree}, Mirrors new old →
      new = group .brace (.node .attributes attributes :: rest) →
      ∃ others more, old = group .brace (.node .attributes others :: more) ∧
        List.Forall₂ Mirrors attributes others := by
    rintro new old attributes rest mirrors rfl
    obtain ⟨_, rfl, pairs⟩ := mirrors.of_node rfl
    cases pairs with
    | cons first _ =>
        obtain ⟨others, rfl, inner⟩ := first.of_node rfl
        exact ⟨others, _, rfl, inner⟩
  unfold Tree.innerAttributes
  split
  · obtain ⟨others, more, rfl, inner⟩ := one mirrors rfl
    exact inner
  · rename_i other
    split
    · obtain ⟨others, more, rfl, -⟩ := one mirrors.symm rfl
      exact absurd rfl (other _ _)
    · exact .nil

end

end Mirrors

/-! ### Places and sites -/

section
variable {news olds : List Tree}

theorem asFunction?_of_mirrors (pairs : List.Forall₂ Mirrors news olds) {function : Function}
    (found : (Tree.node .itemFn news).asFunction? = some function) :
    ∃ other, (Tree.node .itemFn olds).asFunction? = some other ∧ other.name = function.name ∧
      (Catalog.isTest function = true → Catalog.isTest other = true) := by
  obtain ⟨outer, visibility, signature, body, same, rfl⟩ := function_shape found
  cases same
  rcases pairs with _ | ⟨attributes, _ | ⟨_, _ | ⟨signed, _ | ⟨bodied, _ | _⟩⟩⟩⟩
  obtain ⟨others, rfl, pairs⟩ := attributes.of_node rfl
  refine ⟨_, rfl, signed.signatureName.symm, Mirrors.isTest_of_pairs ?_ _ _ _ _⟩
  exact List.rel_append pairs bodied.innerAttributes

theorem symm_of_mirrors (pairs : List.Forall₂ Mirrors news olds) : List.Forall₂ Mirrors olds news :=
  pairs.flip.imp fun _ _ mirrors => mirrors.symm

/-- A walk stands at the same place inside a node as inside one that mirrors it. -/
theorem inside_of_mirrors (pairs : List.Forall₂ Mirrors news olds) (root : String) (place : Place) (kind : Kind) :
    place.inside root (.node kind news) = place.inside root (.node kind olds) := by
  have back := symm_of_mirrors pairs
  unfold Place.inside
  split
  · rename_i same
    cases same
    rcases pairs with _ | ⟨_, _ | ⟨_, _ | ⟨_, _ | ⟨_, _ | ⟨name, _⟩⟩⟩⟩⟩
    cases name.of_token
    rfl
  · rename_i same
    cases same
    cases found : (Tree.node .itemFn news).asFunction? with
    | some function =>
        obtain ⟨other, same, named, test⟩ := asFunction?_of_mirrors pairs found
        obtain ⟨again, own, -, tested⟩ := asFunction?_of_mirrors back same
        obtain rfl : function = again := Option.some.inj (found.symm.trans own)
        have tests : Catalog.isTest function = Catalog.isTest other := Bool.eq_iff_iff.mpr ⟨test, tested⟩
        simp only [same, named, tests]
    | none =>
        cases other : (Tree.node .itemFn olds).asFunction? with
        | none => simp only
        | some function =>
            obtain ⟨_, same, -⟩ := asFunction?_of_mirrors back other
            cases found.symm.trans same
  · rename_i same
    cases same
    rcases pairs with _ | ⟨_, _ | ⟨_, _ | ⟨_, _ | ⟨signature, _ | ⟨_, _ | _⟩⟩⟩⟩⟩
    simp only [signature.signatureName]
  · rename_i noModule noFunction noMethod
    split
    · rename_i same
      cases same
      rcases back with _ | ⟨_, _ | ⟨_, _ | ⟨_, _ | ⟨_, _ | ⟨name, _⟩⟩⟩⟩⟩
      cases name.of_token
      exact absurd rfl (noModule _ _ _ _ _ _)
    · rename_i same
      cases same
      exact absurd rfl (noFunction _)
    · rename_i same
      cases same
      rcases back with _ | ⟨_, _ | ⟨_, _ | ⟨_, _ | ⟨_, _ | ⟨_, _ | _⟩⟩⟩⟩⟩
      exact absurd rfl (noMethod _ _ _ _ _)
    · rfl

end

end Tree

namespace Binder
open TestDouble.Tree

variable {binder : Binder} {news olds : List Tree} {kind : Kind}

theorem marks_of_mirrors (pairs : List.Forall₂ Mirrors news olds) :
    binder.Marks (.node kind news) ↔ binder.Marks (.node kind olds) := by
  have one : ∀ {news olds : List Tree}, List.Forall₂ Mirrors news olds →
      binder.Marks (.node kind news) → binder.Marks (.node kind olds) := by
    intro news olds pairs marks
    obtain ⟨rfl, attributes, callee, arguments, rfl, marker⟩ := marks_call marks
    rcases pairs with _ | ⟨_, _ | ⟨called, _ | ⟨_, _ | _⟩⟩⟩
    exact ⟨_, rfl, called.isMarker marker⟩
  exact ⟨one pairs, one (symm_of_mirrors pairs)⟩

theorem bind_mirrors (tree : Tree) (place : Place) : Mirrors (binder.bind place tree).1 tree := by
  induction tree using Tree.byChildren generalizing place with
  | token t => exact .token t
  | node kind children ih =>
      rcases bind_shape place kind children with ⟨other, news, remakes, same⟩ | same
      · rw [same]
        cases remakes <;> exact .other rfl rfl
      · rw [same]
        refine .node (fun _ => rfl) fun _ => ?_
        rw [List.map_map, List.forall₂_map_left_iff, List.forall₂_same]
        exact fun child member => ih child member _

end Binder

namespace Tree

theorem normalNode_guide (kind : Kind) (children : List Tree) : normalNode kind children = .node kind children ∨
    (isGuide kind = false ∧ ∃ other parts, normalNode kind children = .node other parts ∧ isGuide other = false) := by
  fun_cases normalNode kind children
  all_goals first
    | exact .inr ⟨rfl, _, _, rfl, rfl⟩
    | exact .inl rfl

theorem normal_mirrors (tree : Tree) : Mirrors tree.normal tree := by
  induction tree using Tree.byChildren with
  | token t => exact .token t
  | node kind children ih =>
      by_cases unread : kind = .unread
      · subst unread
        exact .refl _
      by_cases arguments : kind = .arguments
      · subst arguments
        exact .refl _
      rw [normal_node unread arguments]
      rcases normalNode_guide kind (children.map normal) with same | ⟨plain, other, parts, same, closed⟩
      · rw [same]
        exact .node (fun _ => rfl) fun _ => List.forall₂_map_left_iff.mpr (List.forall₂_same.mpr ih)
      · rw [same]
        exact .other closed plain

theorem enclosed_mirrors (tree : Tree) (context : OperandContext) : Mirrors (tree.enclosed context) tree := by
  induction tree using Tree.byChildren generalizing context with
  | token t => exact .token t
  | node kind children ih =>
      by_cases unread : kind = .unread
      · subst unread
        exact .refl _
      by_cases arguments : kind = .arguments
      · subst arguments
        exact .refl _
      by_cases closure : kind = .closure
      · subst closure
        exact .other rfl rfl
      rcases enclosed_node unread arguments closure context children with same | ⟨rfl, same⟩
      · rw [same]
        exact .node (fun _ => rfl) fun _ => enclosedAll_pairs ih context kind 0
      · rw [same]
        exact .other rfl rfl

end Tree

end TestDouble
