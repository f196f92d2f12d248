import TestDouble.Proofs.Site.Shown
/-!
# Trees without sites

Nothing is found in a tree if it is an item, or if it is no site itself and nothing is found in its children.
Canonical form moves parts around and wraps them, so nothing is found in it if nothing was before.
-/

namespace TestDouble

namespace Site
open TestDouble.Tree

variable {settings : Settings} {kind : Kind} {children news olds : List Tree}

theorem ofNode_eq_none {tree : Tree} :
    ofNode settings tree = none ↔ settings.marks tree = false ∧ Binder.isConfiguration settings tree = false := by
  unfold ofNode Settings.marks Binder.isConfiguration
  cases called : tree.asCall? with
  | some call =>
      have other : tree.asMethodCall? = none := by
        rw [Call.asCall?_iff] at called
        rw [called]
        rfl
      simp [other]
  | none =>
      cases method : tree.asMethodCall? with
      | none => simp
      | some call => simp

theorem ofNode_of_kind (notCall : kind ≠ .call) (notMethod : kind ≠ .methodCall) :
    ofNode settings (.node kind children) = none := by
  unfold ofNode asCall? asMethodCall?
  cases kind
  case call => exact absurd rfl notCall
  case methodCall => exact absurd rfl notMethod
  all_goals rfl

theorem ofTree_eq_nil : ofTree settings (.node kind children) = [] ↔
    isItem kind = true ∨
      ofNode settings (.node kind children) = none ∧ ∀ child ∈ children, ofTree settings child = [] := by
  rw [ofTree, ofTrees_eq_flatMap]
  split
  · rename_i item
    simp [item]
  · rename_i other
    simp [other]

theorem marks_of_shows (pairs : List.Forall₂ Shows news olds) (marks : settings.marks (.node kind news) = true) :
    settings.marks (.node kind olds) = true := by
  unfold Settings.marks at marks
  cases viewed : (Tree.node kind news).asCall? with
  | none =>
      rw [viewed] at marks
      cases marks
  | some call =>
      rw [viewed] at marks
      cases Call.asCall?_iff.mp viewed
      rcases pairs with _ | ⟨_, _ | ⟨callee, _ | ⟨_, _ | _⟩⟩⟩
      exact isMarker_of_shows callee marks

/-- A node whose children show what those of another one show is found only if that one is. -/
theorem ofNode_of_shows (pairs : List.Forall₂ Shows news olds) (nothing : ofNode settings (.node kind olds) = none) :
    ofNode settings (.node kind news) = none := by
  rw [ofNode_eq_none] at nothing ⊢
  constructor
  · exact Bool.eq_false_iff.mpr fun marks => by simp [marks_of_shows pairs marks] at nothing
  · refine Bool.eq_false_iff.mpr fun found => ?_
    obtain rfl := Binder.kind_of_isConfiguration found
    simp [isConfiguration_of_shows pairs found] at nothing

/-! ### Canonical form -/

/-- That nothing is found in a tree. -/
def Clear (settings : Settings) (tree : Tree) : Prop := ofTree settings tree = []

theorem clear_token (t : Token) : Clear settings (.token t) := rfl

theorem clear_of_item (item : isItem kind = true) : Clear settings (.node kind children) :=
  ofTree_eq_nil.mpr (.inl item)

theorem clear_node (nothing : ofNode settings (.node kind children) = none)
    (clear : ∀ child ∈ children, Clear settings child) : Clear settings (.node kind children) :=
  ofTree_eq_nil.mpr (.inr ⟨nothing, clear⟩)

theorem clear_absent : Clear settings absent := rfl

theorem clear_parenthesized {attributes : List Tree} {inner : Tree}
    (outer : ∀ child ∈ attributes, Clear settings child) (clear : Clear settings inner) :
    Clear settings (parenthesized attributes inner) := by
  have own : Clear settings (.node .attributes attributes) := clear_node (ofNode_of_kind (by decide) (by decide)) outer
  have wrapped : Clear settings (group .paren [inner]) :=
    clear_node (ofNode_of_kind (by simp) (by simp)) (List.forall_mem_singleton.mpr clear)
  exact clear_node (ofNode_of_kind (by decide) (by decide))
    (List.forall_mem_cons.mpr ⟨own, List.forall_mem_singleton.mpr wrapped⟩)

theorem clear_fieldName {tree : Tree} (clear : Clear settings tree) : Clear settings tree.fieldName := by
  unfold fieldName
  split
  · split <;> exact clear_token _
  · exact clear

theorem clear_lifetimesFirst (front : List Tree) {rest : List Tree} (clear : ∀ child ∈ front ++ rest, Clear settings child) :
    ∀ part ∈ front ++ lifetimesFirst rest.dropLast ++ rest.getLast?.toList, Clear settings part := by
  intro part member
  obtain ⟨gap, shape, moved⟩ := lifetimesFirst_dropLast_perm front rest
  rcases List.mem_append.mp (moved.mem_iff.mp member) with added | inside
  · rcases shape with rfl | rfl
    · cases added
    · rw [List.mem_singleton.mp added]
      exact clear_token _
  · exact clear part inside

/-- Writing a node in canonical form makes no site. -/
theorem clear_normalNode (nothing : ofNode settings (.node kind children) = none)
    (clear : ∀ child ∈ children, Clear settings child) : Clear settings (normalNode kind children) := by
  fun_cases normalNode kind children
  case case17 => exact clear_node nothing clear
  case case15 first more rest =>
    obtain ⟨outer, later⟩ := List.forall_mem_cons.mp clear
    have own := (ofTree_eq_nil.mp outer).resolve_left (by decide)
    refine clear_parenthesized own.2 (clear_node (ofNode_of_kind (by decide) (by decide)) ?_)
    exact List.forall_mem_cons.mpr ⟨clear_node (ofNode_of_kind (by decide) (by decide)) (by simp), later⟩
  all_goals refine clear_node (ofNode_of_kind (by decide) (by decide)) ?_
  case case2 opening rest _ => exact clear_lifetimesFirst [opening] clear
  case case3 lead opening rest => exact clear_lifetimesFirst [lead, opening] clear
  case case4 use opening rest => exact clear_lifetimesFirst [use, opening] clear
  case case8 attributes operand dot spelling =>
    simp only [List.mem_cons, List.not_mem_nil, or_false, forall_eq_or_imp, forall_eq] at clear ⊢
    refine ⟨clear.1, clear.2.1, fun part member => ?_⟩
    rcases mem_numberFields member with rfl | ⟨text, rfl⟩
    · exact clear.2.2.1
    · exact clear_token _
  all_goals simp only [List.mem_cons, List.not_mem_nil, or_false, forall_eq_or_imp, forall_eq] at clear ⊢
  case case1 | case5 | case6 => exact fun child none => none.elim
  case case7 lead inputs result => exact ⟨clear_absent, clear.2⟩
  case case9 attributes type => exact ⟨clear.1, clear_token _, clear_token _, clear.2⟩
  case case10 attributes visibility rest => exact ⟨clear.1, clear_absent, clear.2.2⟩
  case case11 attributes name rest => exact ⟨clear.1, clear_fieldName clear.2.1, clear.2.2⟩
  case case12 attributes name rest => exact ⟨clear.1, clear_fieldName clear.2.1, clear.2.2⟩
  case case13 start dots stop =>
    refine ⟨clear.1, ?_, clear.2.2⟩
    split
    · exact clear_token _
    · exact clear.2.1
  case case14 first more parts =>
    exact ⟨clear.1, clear_node (ofNode_of_kind (by simp) (by simp)) (List.forall_mem_singleton.mpr clear.2)⟩
  case case16 attributes word target value enclosedValue =>
    refine ⟨clear.1, clear.2.1, clear.2.2.1, ?_⟩
    unfold enclosedValue
    split
    · exact clear_parenthesized (by simp) clear.2.2.2
    · exact clear.2.2.2

theorem clear_normal (tree : Tree) (clear : Clear settings tree) : Clear settings tree.normal := by
  induction tree using Tree.byChildren with
  | token t => exact clear
  | node kind children ih =>
      by_cases unread : kind = .unread
      · subst unread
        exact clear
      by_cases arguments : kind = .arguments
      · subst arguments
        exact clear
      rw [normal_node unread arguments]
      rcases ofTree_eq_nil.mp clear with item | ⟨nothing, below⟩
      · rcases normalNode_hidden kind (children.map normal) with same | ⟨-, -, other, -⟩
        · rw [same]
          exact clear_of_item item
        · rw [item] at other
          cases other
      · refine clear_normalNode ?_ (List.forall_mem_map.mpr fun child member => ih child member (below child member))
        exact ofNode_of_shows (List.forall₂_map_left_iff.mpr (List.forall₂_same.mpr fun child _ => normal_shows child)) nothing

theorem clear_of_pairs {news olds : List Tree}
    (pairs : List.Forall₂ (fun new old => Shows new old ∧ (Clear settings old → Clear settings new)) news olds)
    (whole : Clear settings (.node kind olds)) : Clear settings (.node kind news) := by
  rcases ofTree_eq_nil.mp whole with item | ⟨nothing, below⟩
  · exact clear_of_item item
  · refine clear_node (ofNode_of_shows (pairs.imp fun _ _ both => both.1) nothing) ?_
    clear whole nothing
    induction pairs with
    | nil => simp
    | cons first _ ih =>
        obtain ⟨own, later⟩ := List.forall_mem_cons.mp below
        exact List.forall_mem_cons.mpr ⟨first.2 own, ih later⟩

theorem clear_enclosed (tree : Tree) (clear : Clear settings tree) (context : OperandContext) :
    Clear settings (tree.enclosed context) := by
  induction tree using Tree.byChildren generalizing context with
  | token t => exact clear
  | node kind children ih =>
      have each : ∀ child ∈ children, ∀ context, Shows (child.enclosed context) child ∧
          (Clear settings child → Clear settings (child.enclosed context)) :=
        fun child member context => ⟨enclosed_shows child context, fun own => ih child member own context⟩
      by_cases unread : kind = .unread
      · subst unread
        exact clear
      by_cases arguments : kind = .arguments
      · subst arguments
        exact clear
      by_cases closure : kind = .closure
      · subst closure
        exact clear_of_pairs (enclosedBody_pairs each context) clear
      have inner := clear_of_pairs (enclosedAll_pairs each context kind 0) clear
      rcases enclosed_node unread arguments closure context children with same | ⟨-, same⟩
      · rw [same]
        exact inner
      · rw [same]
        exact clear_parenthesized (by simp) inner

/-- Writing a tree in canonical form makes no site. -/
theorem clear_canonical {tree : Tree} (clear : Clear settings tree) : Clear settings tree.canonical :=
  clear_enclosed _ (clear_normal tree clear) .free

end Site

end TestDouble
