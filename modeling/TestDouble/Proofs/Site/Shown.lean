import TestDouble.Proofs.Site.Holding
import TestDouble.Proofs.Source.Canonical
/-!
# What a search sees of a tree

The search for creation sites and configurations looks into nodes of a few kinds only. A rewriting that makes
no new node of these kinds and keeps the names in them makes no new site. Canonical form is such a rewriting,
and binding is one for whatever is seen from the node around.
-/

namespace TestDouble

namespace Tree

/-- The kinds of nodes into which the search looks from the node around. -/
def isShown : Kind → Bool
  | .methodCall | .pathExpr | .path | .segment => true
  | _ => false

/-- That a tree shows the search nothing that another one, in its place, does not show. -/
inductive Shows : Tree → Tree → Prop where
  | token (t : Token) : Shows (.token t) (.token t)
  | node {kind other : Kind} {news olds : List Tree} (back : other = .segment → kind = .segment)
      (same : isShown kind = true → kind = other) (below : isShown kind = true → List.Forall₂ Shows news olds) :
      Shows (.node kind news) (.node other olds)

theorem Shows.refl (tree : Tree) : Shows tree tree := by
  induction tree using Tree.byChildren with
  | token t => exact .token t
  | node kind children ih => exact .node id (fun _ => rfl) fun _ => List.forall₂_same.mpr ih

theorem Shows.hidden {kind other : Kind} {news olds : List Tree} (segment : other ≠ .segment) (hidden : isShown kind = false) :
    Shows (.node kind news) (.node other olds) := by
  refine .node (fun same => absurd same segment) ?_ ?_
  · intro shown
    rw [hidden] at shown
    cases shown
  · intro shown
    rw [hidden] at shown
    cases shown

section
variable {new old : Tree} {news olds : List Tree}

theorem Shows.isPunct (shows : Shows new old) (text : String) : new.isPunct text = old.isPunct text := by
  cases shows <;> rfl

theorem Shows.of_node {kind : Kind} (shows : Shows (.node kind news) old) (shown : isShown kind = true) :
    ∃ olds, old = .node kind olds ∧ List.Forall₂ Shows news olds := by
  cases shows with
  | node _ same below =>
      cases same shown
      exact ⟨_, rfl, below shown⟩

theorem Shows.ident {name : String} (shows : Shows (.token (.ident name)) old) : old = .token (.ident name) := by
  cases shows
  rfl

theorem Shows.isSegment (shows : Shows new old) :
    (new.kind? == some .segment) = (old.kind? == some .segment) := by
  cases shows with
  | token t => rfl
  | @node kind other news olds back same _ =>
      rw [Bool.eq_iff_iff]
      simp only [kind?_node, beq_iff_eq, Option.some.injEq]
      constructor
      · rintro rfl
        exact (same rfl).symm
      · exact back

theorem Shows.segmentName (shows : Shows new old) (segment : (new.kind? == some .segment) = true) :
    new.segmentName = old.segmentName := by
  cases new with
  | token t => cases segment
  | node kind news =>
      obtain rfl : kind = .segment := by simpa using segment
      obtain ⟨olds, rfl, pairs⟩ := shows.of_node rfl
      cases pairs with
      | nil => rfl
      | cons first rest =>
          cases first with
          | token t => cases t <;> rfl
          | node _ _ _ => rfl

theorem names_of_shows (pairs : List.Forall₂ Shows news olds) :
    (Tree.node .path news).names = (Tree.node .path olds).names := by
  show (news.filter _).map Tree.segmentName = (olds.filter _).map Tree.segmentName
  induction pairs with
  | nil => rfl
  | @cons new old news olds shows _ ih =>
      rw [List.filter_cons, List.filter_cons, ← shows.isSegment]
      split
      · rename_i segment
        rw [List.map_cons, List.map_cons, ih, shows.segmentName segment]
      · exact ih

theorem isRootPath_of_shows (pairs : List.Forall₂ Shows news olds) :
    (Tree.node .path news).isRootPath = (Tree.node .path olds).isRootPath := by
  cases pairs with
  | nil => rfl
  | cons first _ => exact first.isPunct "::"

/-! ### Creation sites and configurations -/

variable {settings : Settings}

theorem isMarker_of_shows {attributes callee arguments own called given : Tree} (shows : Shows callee called)
    (marker : settings.isMarker ⟨attributes, callee, arguments⟩ = true) :
    settings.isMarker ⟨own, called, given⟩ = true := by
  obtain ⟨outer, children, -, -, same, -⟩ := Settings.isMarker_callee marker
  obtain rfl : callee = .node .pathExpr [outer, .node .path children] := same
  obtain ⟨_, rfl, pairs⟩ := shows.of_node rfl
  rcases pairs with _ | ⟨_, _ | ⟨path, _ | _⟩⟩
  obtain ⟨others, rfl, parts⟩ := path.of_node rfl
  simpa [Settings.isMarker, names_of_shows parts, isRootPath_of_shows parts] using marker

theorem asMethodCall?_of_shows (pairs : List.Forall₂ Shows news olds) {call : MethodCall}
    (viewed : (Tree.node .methodCall news).asMethodCall? = some call) :
    ∃ receiver arguments, (Tree.node .methodCall olds).asMethodCall? = some ⟨receiver, call.name, arguments⟩ ∧
      Shows call.receiver receiver := by
  obtain ⟨attributes, dot, generics, same⟩ := asMethodCall?_iff.mp viewed
  cases same
  rcases pairs with _ | ⟨_, _ | ⟨receiver, _ | ⟨_, _ | ⟨name, _ | ⟨_, _ | ⟨_, _ | _⟩⟩⟩⟩⟩⟩
  obtain rfl := name.ident
  exact ⟨_, _, rfl, receiver⟩

theorem isConfiguration_of_shows (pairs : List.Forall₂ Shows news olds)
    (found : Binder.isConfiguration settings (.node .methodCall news) = true) :
    Binder.isConfiguration settings (.node .methodCall olds) = true := by
  obtain ⟨call, inner, viewed, named, configured⟩ := Binder.isConfiguration_iff.mp found
  obtain ⟨receiver, arguments, other, shows⟩ := asMethodCall?_of_shows pairs viewed
  obtain ⟨attributes, dot, generics, same⟩ := asMethodCall?_iff.mp configured
  rw [same] at shows configured
  obtain ⟨olds, rfl, parts⟩ := shows.of_node rfl
  obtain ⟨_, _, below, -⟩ := asMethodCall?_of_shows parts configured
  exact Binder.isConfiguration_iff.mpr ⟨_, _, other, named, below⟩

end

/-! ### Canonical form shows nothing new -/

/-- The nodes that canonical form rewrites. -/
theorem normalNode_hidden (kind : Kind) (children : List Tree) :
    normalNode kind children = .node kind children ∨
      (isShown kind = false ∧ kind ≠ .call ∧ Site.isItem kind = false ∧
        ∃ other parts, normalNode kind children = .node other parts ∧ isShown other = false) := by
  fun_cases normalNode kind children
  all_goals first
    | exact .inr ⟨rfl, by decide, rfl, _, _, rfl, rfl⟩
    | exact .inl rfl

theorem normal_shows (tree : Tree) : Shows tree.normal tree := by
  induction tree using Tree.byChildren with
  | token t => exact .token t
  | node kind children ih =>
      by_cases unread : kind = .unread
      · subst unread
        exact .refl _
      by_cases arguments : kind = .arguments
      · subst arguments
        exact .refl _
      have pairs := List.forall₂_map_left_iff.mpr (List.forall₂_same.mpr ih)
      rw [normal_node unread arguments]
      rcases normalNode_hidden kind (children.map normal) with same | ⟨hidden, -, -, other, parts, same, closed⟩
      · rw [same]
        exact .node id (fun _ => rfl) fun _ => pairs
      · rw [same]
        refine .hidden ?_ closed
        rintro rfl
        cases hidden

theorem enclosed_shows (tree : Tree) (context : OperandContext) : Shows (tree.enclosed context) tree := by
  induction tree using Tree.byChildren generalizing context with
  | token t => exact .token t
  | node kind children ih =>
      by_cases unread : kind = .unread
      · subst unread
        exact .refl _
      by_cases arguments : kind = .arguments
      · subst arguments
        exact .refl _
      by_cases closure : kind = .closure
      · subst closure
        exact .node id (fun _ => rfl) fun _ => enclosedBody_pairs ih context
      rcases enclosed_node unread arguments closure context children with same | ⟨rfl, same⟩
      · rw [same]
        exact .node id (fun _ => rfl) fun _ => enclosedAll_pairs ih context kind 0
      · rw [same]
        exact .hidden (by decide) rfl

end Tree

end TestDouble
