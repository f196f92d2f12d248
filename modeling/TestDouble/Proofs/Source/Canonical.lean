import TestDouble.Proofs.Source.Normal
/-!
# Names in the canonical form of a whole tree

The canonical form of a tree has no more of the names than the tree, and rewriting parts of a tree has the same
effect on the names in its canonical form as on those in the tree. Parentheses have no effect on them.
-/

namespace TestDouble

namespace Tree
open Token
variable {own : String → Bool} {kind : Kind}

theorem normalNode_opens (kind : Kind) (children : List Tree) : (normalNode kind children).opens = kind.opens := by
  fun_cases normalNode kind children
  all_goals rfl

theorem normalNode_isColons (kind : Kind) (children : List Tree) : (normalNode kind children).isColons = false := by
  obtain ⟨other, parts, found⟩ := normalNode_isNode kind children
  rw [found]
  rfl

section
variable {news olds : List Tree}

theorem fluent_of_below (pairs : List.Forall₂ (Below own) news olds) :
    (∀ new ∈ news, new.Fluent) ∧ ∀ old ∈ olds, old.Fluent := by
  induction pairs with
  | nil => simp
  | cons below _ ih => exact ⟨List.forall_mem_cons.mpr ⟨below.fluent, ih.1⟩, List.forall_mem_cons.mpr ⟨below.outer, ih.2⟩⟩

theorem kept_of_ne (other : kind ≠ .variant) (children : List Tree) : kept kind children = children := by
  rw [kept]
  rintro attributes visibility rest rfl
  exact absurd rfl other

theorem kept_below (pairs : List.Forall₂ (Below own) news olds) :
    List.Forall₂ (Below own) (kept kind news) (kept kind olds) := by
  by_cases variant : kind = .variant
  · subst variant
    rcases pairs with _ | ⟨first, _ | ⟨second, rest⟩⟩
    · exact .nil
    · exact .cons first .nil
    · exact .cons first (.cons (.refl fluent_absent) rest)
  · rw [kept_of_ne variant, kept_of_ne variant]
    exact pairs

theorem kept_flows {children : List Tree} (arranged : Arranged kind children) : flows kind.leads (kept kind children) = true := by
  by_cases variant : kind = .variant
  · subst variant
    have none := arranged.apart rfl
    refine flows_of_noColons ?_
    unfold kept
    split
    · simp_all
    · exact none
  · rw [kept_of_ne variant]
    exact arranged.flow

variable (blank : own "_" = false) (word : own "where" = false) (pairs : List.Forall₂ (Below own) news olds)
  (new : Arranged kind news) (old : Arranged kind olds)
include blank word pairs new old

theorem normalNode_below : Below own (normalNode kind news) (normalNode kind olds) := by
  have evenNew := normalNode_even blank word new (fluent_of_below pairs).1
  have evenOld := normalNode_even blank word old (fluent_of_below pairs).2
  have below := Below.node (kept_below pairs) (kept_flows old)
  refine ⟨evenNew.fluent, evenOld.fluent, ?_, ?_, fun behind free => ?_⟩
  · rw [normalNode_isColons, normalNode_isColons]
  · rw [normalNode_opens, normalNode_opens]
    exact id
  · rw [normalNode_opens] at free
    rw [evenNew.same behind free, evenOld.same behind free]
    exact below.le behind free

theorem normalNode_under (found : ∃ pair ∈ (kept kind news).zip (kept kind olds), Under own pair.1 pair.2) :
    Under own (normalNode kind news) (normalNode kind olds) where
  toBelow := normalNode_below blank word pairs new old
  lt behind free := by
    rw [normalNode_opens] at free
    rw [(normalNode_even blank word new (fluent_of_below pairs).1).same behind free,
      (normalNode_even blank word old (fluent_of_below pairs).2).same behind free]
    exact (Under.node (kept_below pairs) (kept_flows old) found).lt behind free

end

/-! ### The canonical form before parentheses -/

theorem kept_le {children : List Tree} (arranged : Arranged kind children) (fluent : ∀ child ∈ children, child.Fluent)
    {behind : Bool} (free : behind = true → kind.opens = true) :
    heads own behind (node kind (kept kind children)).tokens ≤ heads own behind (node kind children).tokens := by
  by_cases variant : kind = .variant
  · subst variant
    obtain rfl : behind = false := by
      cases behind with
      | false => rfl
      | true => exact absurd (free rfl) (by decide)
    match children, arranged, fluent with
    | [], _, _ => exact Nat.le_refl _
    | [_], _, _ => exact Nat.le_refl _
    | attributes :: visibility :: rest, arranged, fluent =>
        have none := arranged.apart rfl
        have bare : noColons (attributes :: absent :: rest) = true := by simp_all
        have flowing := fluent
        simp only [List.mem_cons, forall_eq_or_imp] at flowing
        have fewer : ∀ child ∈ attributes :: absent :: rest, child.Fluent := by
          simp only [List.mem_cons, forall_eq_or_imp]
          exact ⟨flowing.1, fluent_absent, flowing.2.2⟩
        show weight own (node .variant (attributes :: absent :: rest)) ≤ weight own (node .variant _)
        rw [weight_node (by simp) none fluent, weight_node (by simp) bare fewer]
        have nothing : weight own absent = 0 := rfl
        simp [nothing]
  · have same : kept kind children = children := kept_of_ne variant children
    exact Nat.le_of_eq (by rw [same])

theorem normal_below (blank : own "_" = false) (word : own "where" = false) {tree : Tree} (sound : tree.sound = true) :
    Below own tree.normal tree := by
  induction tree using Tree.byChildren with
  | token t => exact .refl (.token t)
  | node kind children ih =>
      have fluent := fluent_of_sound sound
      by_cases unread : kind = .unread
      · subst unread
        exact .refl fluent
      by_cases arguments : kind = .arguments
      · subst arguments
        exact .refl fluent
      have each : ∀ child ∈ children, Below own child.normal child := by
        intro child member
        rcases (sound_parts sound).2.2 child member with inside | ⟨-, colons⟩
        · exact ih child member inside
        · obtain ⟨joint, rfl⟩ := tokens_of_isColons colons
          exact .refl (.token _)
      have pairs := List.forall₂_map_left_iff.mpr (List.forall₂_same.mpr each)
      have arranged := arranged_of_sound sound
      have even : Even own _ kind _ := normalNode_even blank word (arranged.map fun child _ => normal_alike child)
        (fluent_of_below pairs).1
      rw [normal_node unread arguments]
      refine ⟨even.fluent, fluent, normalNode_isColons _ _, ?_, fun behind free => ?_⟩
      · rw [normalNode_opens]
        exact id
      · rw [even.same behind free]
        have below := Below.node (kept_below pairs) (kept_flows arranged)
        exact Nat.le_trans (below.le behind free) (kept_le arranged (fun child => fluent.child) free)

/-- The names of a node that canonical form leaves as it is. -/
theorem weight_normal (blank : own "_" = false) (word : own "where" = false) {children : List Tree}
    (sound : (Tree.node kind children).sound = true) (apart : kind.joins = false) (closed : kind.opens = false)
    (other : kind ≠ .arguments) (plain : ∀ parts, normalNode kind parts = .node kind parts) :
    weight own (Tree.node kind children).normal = (children.map fun child => weight own child.normal).sum := by
  have fluent := (normal_below blank word sound).fluent
  have read : kind ≠ .unread := by
    rintro rfl
    cases apart
  have arranged := (arranged_of_sound sound).map fun child _ => normal_alike child
  rw [normal_node read other, plain] at fluent ⊢
  rw [weight_node (apart_of_closed closed) (arranged.apart apart) fun child => fluent.child, List.map_map]
  rfl

/-! ### Parentheses -/

/-- That two trees have as many of the names, wherever they may stand. -/
def Level (own : String → Bool) (new old : Tree) : Prop := Below own new old ∧ Below own old new

theorem Level.refl {tree : Tree} (fluent : tree.Fluent) : Level own tree tree := ⟨.refl fluent, .refl fluent⟩

theorem Level.node {news olds : List Tree} (pairs : List.Forall₂ (Level own) news olds)
    (flow : flows kind.leads olds = true) : Level own (.node kind news) (.node kind olds) := by
  have below : List.Forall₂ (Below own) news olds := pairs.imp fun _ _ level => level.1
  have above : List.Forall₂ (Below own) olds news := (pairs.imp fun _ _ level => level.2).flip
  exact ⟨.node below flow, .node above (flows_below below flow)⟩

theorem enclosedAll_pairs {relation : Tree → Tree → Prop} {trees : List Tree}
    (each : ∀ tree ∈ trees, ∀ context, relation (tree.enclosed context) tree) (context : OperandContext) (kind : Kind)
    (index : Nat) : List.Forall₂ relation (enclosedAll context kind index trees) trees := by
  induction trees generalizing index with
  | nil => exact .nil
  | cons first rest ih =>
      exact .cons (each first List.mem_cons_self _) (ih (fun tree member => each tree (List.mem_cons_of_mem _ member)) _)

theorem enclosedBody_pairs {relation : Tree → Tree → Prop} {trees : List Tree}
    (each : ∀ tree ∈ trees, ∀ context, relation (tree.enclosed context) tree) (context : OperandContext) :
    List.Forall₂ relation (enclosedBody context trees) trees := by
  induction trees with
  | nil => exact .nil
  | cons first rest ih =>
      have later := ih fun tree member => each tree (List.mem_cons_of_mem _ member)
      cases rest with
      | nil => exact .cons (each first List.mem_cons_self _) .nil
      | cons second more => exact .cons (each first List.mem_cons_self _) later

/-- Trees that do not begin with a token of their own are compared where nothing stands before them. -/
theorem below_of_weight {new old : Tree} (fluent : new.Fluent) (outer : old.Fluent) (closed : old.opens = false)
    (apart : new.isColons = false) (le : weight own new ≤ weight own old) : Below own new old where
  fluent := fluent
  outer := outer
  colons := by
    cases old with
    | token t => cases closed
    | node kind children => exact apart
  opened opened := by
    rw [closed] at opened
    cases opened
  le behind free := by
    cases behind with
    | false => exact le
    | true =>
        have opened := free rfl
        rw [closed] at opened
        cases opened

theorem under_of_weight {new old : Tree} (fluent : new.Fluent) (outer : old.Fluent) (closed : old.opens = false)
    (apart : new.isColons = false) (lt : weight own new < weight own old) : Under own new old where
  toBelow := below_of_weight fluent outer closed apart (Nat.le_of_lt lt)
  lt behind free := by
    cases behind with
    | false => exact lt
    | true =>
        have opened := free rfl
        rw [closed] at opened
        cases opened

theorem level_parenthesized {kind : Kind} {children : List Tree} (fluent : (Tree.node kind children).Fluent)
    (closed : kind.opens = false) : Level own (parenthesized [] (.node kind children)) (.node kind children) := by
  have outer : (Tree.node .attributes []).Fluent := .node rfl (by simp)
  have same : weight own (parenthesized [] (.node kind children)) = weight own (.node kind children) := by
    rw [weight_parenthesized outer rfl fluent]
    exact Nat.zero_add _
  have wrapped := fluent_parenthesized outer rfl fluent
  exact ⟨below_of_weight wrapped fluent closed rfl (Nat.le_of_eq same),
    below_of_weight fluent wrapped rfl rfl (Nat.le_of_eq same.symm)⟩

theorem kind_of_isBareBlock {kind : Kind} {children : List Tree} (bare : isBareBlock (.node kind children) = true) :
    kind = .block := by
  unfold isBareBlock at bare
  split at bare
  · rename_i same
    cases same
    rfl
  · cases bare

theorem enclosed_node {kind : Kind} (read : kind ≠ .unread) (reread : kind ≠ .arguments) (other : kind ≠ .closure)
    (context : OperandContext) (children : List Tree) :
    enclosed context (.node kind children) = .node kind (enclosedAll context kind 0 children) ∨
      (kind = .block ∧ enclosed context (.node kind children) =
        parenthesized [] (.node kind (enclosedAll context kind 0 children))) := by
  rw [enclosed_other read reread other]
  split
  · rename_i bare
    exact .inr ⟨kind_of_isBareBlock (Bool.and_eq_true_iff.mp bare).2, rfl⟩
  · exact .inl rfl

theorem enclosed_level {tree : Tree} (fluent : tree.Fluent) (context : OperandContext) :
    Level own (tree.enclosed context) tree := by
  induction fluent generalizing context with
  | token t => exact .refl (.token t)
  | @node kind children flow below ih =>
      have fluent : (Tree.node kind children).Fluent := .node flow below
      by_cases unread : kind = .unread
      · subst unread
        exact .refl fluent
      by_cases arguments : kind = .arguments
      · subst arguments
        exact .refl fluent
      by_cases closure : kind = .closure
      · subst closure
        exact .node (enclosedBody_pairs ih context) flow
      have inner : Level own (.node kind (enclosedAll context kind 0 children)) (.node kind children) :=
        .node (enclosedAll_pairs ih context kind 0) flow
      rcases enclosed_node unread arguments closure context children with same | ⟨rfl, same⟩
      · rw [same]
        exact inner
      · rw [same]
        have wrapped : Level own _ _ := level_parenthesized inner.1.fluent rfl
        exact ⟨wrapped.1.trans inner.1, inner.2.trans wrapped.2⟩

/-- The canonical form has as many of the names as before the parentheses. -/
theorem canonical_level {tree : Tree} (fluent : tree.normal.Fluent) : Level own tree.canonical tree.normal :=
  enclosed_level fluent .free

end Tree

end TestDouble
