import Mathlib
import TestDouble.Proofs.Source.Fluent
/-!
# Names that do not stand behind `::`

How often some names occur in a run of tokens, other than directly behind `::`. In fluent trees the count is
taken one tree at a time, so it grows with each of them.
-/

namespace TestDouble

namespace Token

def isColons : Token → Bool
  | .punct text _ => text == "::"
  | _ => false

def counted (own : String → Bool) : Token → Nat
  | .ident name => (own name).toNat
  | _ => 0

/-- The number of the given names that do not stand behind `::`; with `behind`, the first token does. -/
def heads (own : String → Bool) (behind : Bool) : List Token → Nat
  | [] => 0
  | t :: rest => (if behind then 0 else t.counted own) + heads own t.isColons rest

/-- Whether what follows the tokens stands behind `::`. -/
def leaves (behind : Bool) : List Token → Bool
  | [] => behind
  | t :: rest => leaves t.isColons rest

variable {own : String → Bool} {behind : Bool} {left right : List Token}

theorem heads_append : heads own behind (left ++ right) = heads own behind left + heads own (leaves behind left) right := by
  induction left generalizing behind with
  | nil => exact (Nat.zero_add _).symm
  | cons t rest ih => rw [List.cons_append, heads, heads, leaves, ih, Nat.add_assoc]

theorem leaves_eq (tokens : List Token) : leaves behind tokens = !Tree.flows behind (tokens.map .token) := by
  induction tokens generalizing behind with
  | nil => exact (Bool.not_not _).symm
  | cons t rest ih =>
      have opened : (!behind || (Tree.token t).opens) = true := Bool.or_true _
      rw [leaves, List.map_cons, Tree.flows_cons, opened, Bool.true_and, ih]
      cases t <;> rfl

/-- Standing behind `::` takes at most the first name away. -/
theorem heads_behind_le : heads own true left ≤ heads own behind left := by
  cases left with
  | nil => exact Nat.le_refl _
  | cons t rest =>
      simp only [heads, if_true, Nat.zero_add]
      exact Nat.le_add_left _ _

end Token

namespace Tree
open Token

variable {own : String → Bool} {behind : Bool}

theorem free_of_flows {tree : Tree} {rest : List Tree} (flow : flows behind (tree :: rest) = true) :
    behind = true → tree.opens = true := by
  rintro rfl
  exact (Bool.and_eq_true_iff.mp flow).1

theorem flows_tail {tree : Tree} {rest : List Tree} (flow : flows behind (tree :: rest) = true) :
    flows tree.isColons rest = true :=
  (Bool.and_eq_true_iff.mp flow).2

/-- What follows a fluent tree stands behind `::` only if the tree is `::` itself. -/
theorem Fluent.leaves {tree : Tree} (fluent : tree.Fluent) (free : behind = true → tree.opens = true) :
    Token.leaves behind tree.tokens = tree.isColons := by
  cases colons : tree.isColons with
  | true =>
      obtain ⟨joint, rfl⟩ := tokens_of_isColons colons
      rfl
  | false =>
      rw [leaves_eq, fluent.flows_tokens colons free]
      rfl

theorem heads_tokensAll_cons {tree : Tree} {rest : List Tree} (fluent : tree.Fluent)
    (flow : flows behind (tree :: rest) = true) : heads own behind (tokensAll (tree :: rest)) =
      heads own behind tree.tokens + heads own tree.isColons (tokensAll rest) := by
  rw [tokensAll, heads_append, fluent.leaves (free_of_flows flow)]

/-- That a tree has no more of the names than another one, wherever the other one may stand. -/
structure Below (own : String → Bool) (new old : Tree) : Prop where
  fluent : new.Fluent
  outer : old.Fluent
  colons : new.isColons = old.isColons
  opened : old.opens = true → new.opens = true
  le : ∀ behind : Bool, (behind = true → old.opens = true) →
    heads own behind new.tokens ≤ heads own behind old.tokens

/-- That a tree has fewer of the names than another one, wherever the other one may stand. -/
structure Under (own : String → Bool) (new old : Tree) : Prop extends Below own new old where
  lt : ∀ behind : Bool, (behind = true → old.opens = true) →
    heads own behind new.tokens < heads own behind old.tokens

section
variable {news olds : List Tree}

theorem flows_below (pairs : List.Forall₂ (Below own) news olds) (flow : flows behind olds = true) :
    flows behind news = true := by
  induction pairs generalizing behind with
  | nil => exact flow
  | @cons new old news olds below _ ih =>
      rw [flows_cons, below.colons, ih (flows_tail flow), Bool.and_true]
      cases behind with
      | false => rfl
      | true => exact below.opened (free_of_flows flow rfl)

theorem heads_below (pairs : List.Forall₂ (Below own) news olds) (flow : flows behind olds = true) :
    heads own behind (tokensAll news) ≤ heads own behind (tokensAll olds) := by
  induction pairs generalizing behind with
  | nil => exact Nat.le_refl _
  | @cons new old news olds below pairs ih =>
      rw [heads_tokensAll_cons below.outer flow, heads_tokensAll_cons below.fluent (flows_below (.cons below pairs) flow),
        below.colons]
      exact Nat.add_le_add (below.le behind (free_of_flows flow)) (ih (flows_tail flow))

theorem heads_under (pairs : List.Forall₂ (Below own) news olds) (flow : flows behind olds = true)
    (found : ∃ pair ∈ news.zip olds, Under own pair.1 pair.2) :
    heads own behind (tokensAll news) < heads own behind (tokensAll olds) := by
  induction pairs generalizing behind with
  | nil =>
      obtain ⟨_, member, _⟩ := found
      cases member
  | @cons new old news olds below pairs ih =>
      rw [heads_tokensAll_cons below.outer flow, heads_tokensAll_cons below.fluent (flows_below (.cons below pairs) flow),
        below.colons]
      obtain ⟨pair, member, under⟩ := found
      rcases List.mem_cons.mp member with rfl | inside
      · exact Nat.add_lt_add_of_lt_of_le (under.lt behind (free_of_flows flow)) (heads_below pairs (flows_tail flow))
      · exact Nat.add_lt_add_of_le_of_lt (below.le behind (free_of_flows flow))
          (ih (flows_tail flow) ⟨pair, inside, under⟩)

end

theorem Below.refl {tree : Tree} (fluent : tree.Fluent) : Below own tree tree :=
  ⟨fluent, fluent, rfl, id, fun _ _ => Nat.le_refl _⟩

theorem Below.trans {first second third : Tree} (lower : Below own first second) (upper : Below own second third) :
    Below own first third where
  fluent := lower.fluent
  outer := upper.outer
  colons := lower.colons.trans upper.colons
  opened := lower.opened ∘ upper.opened
  le behind free := Nat.le_trans (lower.le behind (upper.opened ∘ free)) (upper.le behind free)

theorem Under.of_lower {first second third : Tree} (lower : Under own first second)
    (upper : Below own second third) : Under own first third where
  toBelow := lower.toBelow.trans upper
  lt behind free := Nat.lt_of_lt_of_le (lower.lt behind (upper.opened ∘ free)) (upper.le behind free)

theorem Under.of_upper {first second third : Tree} (lower : Below own first second)
    (upper : Under own second third) : Under own first third where
  toBelow := lower.trans upper.toBelow
  lt behind free := Nat.lt_of_le_of_lt (lower.le behind (upper.opened ∘ free)) (upper.lt behind free)

/-! ### Trees without `::` between them -/

/-- The number of the given names in a tree that does not stand behind `::`. -/
def weight (own : String → Bool) (tree : Tree) : Nat := heads own false tree.tokens

theorem heads_noColons {trees : List Tree} (none : noColons trees = true) (fluent : ∀ tree ∈ trees, tree.Fluent) :
    heads own false (tokensAll trees) = (trees.map (weight own)).sum := by
  induction trees with
  | nil => rfl
  | cons first rest ih =>
      have flow := flows_of_noColons none
      rw [noColons_cons, Bool.and_eq_true, Bool.not_eq_true'] at none
      rw [heads_tokensAll_cons (fluent first List.mem_cons_self) flow, none.1,
        ih none.2 fun tree member => fluent tree (List.mem_cons_of_mem _ member), List.map_cons, List.sum_cons]
      rfl

theorem weight_of_isMark {tree : Tree} (mark : tree.isMark = true) : weight own tree = 0 := by
  unfold isMark at mark
  split at mark
  · rfl
  · rfl
  · cases mark

/-! ### Nodes -/

theorem heads_group (delimiter : Delimiter) (children : List Tree) :
    heads own behind (node (.group delimiter) children).tokens = heads own false (tokensAll children) := by
  have closed : ∀ after : Bool, heads own after [.closing delimiter] = 0 := by
    intro after
    cases after <;> rfl
  have opening : (if behind then 0 else (Token.opening delimiter).counted own) = 0 := by
    cases behind <;> rfl
  rw [tokens, heads, heads_append, closed, opening, Nat.add_zero, Nat.zero_add]
  rfl

/-- Where a node may stand, its children may stand. -/
theorem flows_of_free {kind : Kind} {children : List Tree} (other : ∀ delimiter, kind ≠ .group delimiter)
    (flow : flows kind.leads children = true) (free : behind = true → kind.opens = true) :
    flows behind children = true := by
  cases behind with
  | false => exact flows_false flow
  | true =>
      have leads : kind.leads = true := by
        have opens := free rfl
        cases kind
        case group d => exact absurd rfl (other d)
        all_goals exact opens
      rwa [leads] at flow

section
variable {kind : Kind} {news olds : List Tree}

/-- The heads of a node are those of its children behind what stands before them, nothing if it is a group. -/
theorem heads_node (own : String → Bool) (flow : flows kind.leads olds = true)
    (free : behind = true → kind.opens = true) : ∃ before, flows before olds = true ∧
      ∀ children, heads own behind (node kind children).tokens = heads own before (tokensAll children) := by
  by_cases group : ∃ delimiter, kind = .group delimiter
  · obtain ⟨delimiter, rfl⟩ := group
    exact ⟨false, flow, heads_group delimiter⟩
  · have other := not_exists.mp group
    exact ⟨behind, flows_of_free other flow free, fun children => by rw [tokens_node other]⟩

theorem Below.node (pairs : List.Forall₂ (Below own) news olds) (flow : flows kind.leads olds = true) :
    Below own (.node kind news) (.node kind olds) where
  fluent := by
    refine .node (flows_below pairs flow) ?_
    clear flow
    induction pairs with
    | nil => simp
    | cons below _ ih => exact List.forall_mem_cons.mpr ⟨below.fluent, ih⟩
  outer := by
    refine .node flow ?_
    clear flow
    induction pairs with
    | nil => simp
    | cons below _ ih => exact List.forall_mem_cons.mpr ⟨below.outer, ih⟩
  colons := rfl
  opened := id
  le behind free := by
    obtain ⟨before, flow, inside⟩ := heads_node own flow free
    rw [inside, inside]
    exact heads_below pairs flow

theorem Under.node (pairs : List.Forall₂ (Below own) news olds) (flow : flows kind.leads olds = true)
    (found : ∃ pair ∈ news.zip olds, Under own pair.1 pair.2) : Under own (.node kind news) (.node kind olds) where
  toBelow := .node pairs flow
  lt behind free := by
    obtain ⟨before, flow, inside⟩ := heads_node own flow free
    rw [inside, inside]
    exact heads_under pairs flow found

end

end Tree

end TestDouble
