import TestDouble.Proofs.Source.Fitting
/-!
# Trees in which nothing stands behind `::` but what begins with a token

The tokens of such a tree never end with `::`, so those of a sequence of trees are taken one tree at a time.
-/

namespace TestDouble

namespace Tree

/-- That all through a tree only what begins with a token of its own stands behind `::`. -/
inductive Fluent : Tree → Prop where
  | token (t : Token) : Fluent (.token t)
  | node {kind : Kind} {children : List Tree} (flow : flows kind.leads children = true)
      (below : ∀ child ∈ children, Fluent child) : Fluent (.node kind children)

theorem Fluent.child {kind : Kind} {children : List Tree} (fluent : Fluent (.node kind children)) {child : Tree}
    (member : child ∈ children) : Fluent child := by
  cases fluent with
  | node _ below => exact below child member

theorem Fluent.flow {kind : Kind} {children : List Tree} (fluent : Fluent (.node kind children)) :
    flows kind.leads children = true := by
  cases fluent with
  | node flow _ => exact flow

theorem tokens_of_isColons {tree : Tree} (colons : tree.isColons = true) :
    ∃ joint, tree = .token (.punct "::" joint) := by
  unfold isColons isPunct at colons
  split at colons
  · cases eq_of_beq colons
    exact ⟨_, rfl⟩
  · cases colons

theorem flows_tokensAll {trees : List Tree} {behind : Bool} (flow : flows behind trees = true)
    (each : ∀ tree ∈ trees, tree.isColons = false → ∀ after : Bool, (after = true → tree.opens = true) →
      flows after (tree.tokens.map .token) = true) :
    flows behind ((tokensAll trees).map .token) = true := by
  induction trees generalizing behind with
  | nil => exact flow
  | cons first rest ih =>
      have later := fun behind flow => @ih behind flow fun tree member =>
        each tree (List.mem_cons_of_mem _ member)
      rw [flows_cons, Bool.and_eq_true] at flow
      rw [tokensAll, List.map_append]
      cases colons : first.isColons with
      | true =>
          obtain ⟨joint, rfl⟩ := tokens_of_isColons colons
          rw [colons] at flow
          have behindColons := later true flow.2
          rw [tokens, List.map_singleton, List.singleton_append, flows_cons]
          show ((!behind || true) && flows true _) = true
          rw [Bool.or_true, Bool.true_and]
          exact behindColons
      | false =>
          have free : behind = true → first.opens = true := by
            rintro rfl
            simpa using flow.1
          rw [colons] at flow
          rw [flows_append (each first List.mem_cons_self colons behind free)]
          exact later false flow.2

/-- The tokens of a tree flow as the tree does: they do not end with `::`. -/
theorem Fluent.flows_tokens {tree : Tree} (fluent : tree.Fluent) (apart : tree.isColons = false) {behind : Bool}
    (free : behind = true → tree.opens = true) : flows behind (tree.tokens.map .token) = true := by
  induction fluent generalizing behind with
  | token t => simp [tokens, opens, apart]
  | @node kind children flow below ih =>
      have inside : ∀ behind : Bool, flows behind children = true →
          flows behind ((tokensAll children).map .token) = true :=
        fun behind flow => flows_tokensAll flow fun child member other after free => ih child member other free
      by_cases group : ∃ d, kind = .group d
      · obtain ⟨d, rfl⟩ := group
        have closed := inside false flow
        rw [tokens, List.map_cons, List.map_append, flows_cons]
        show ((!behind || true) && flows false _) = true
        rw [flows_append closed, Bool.or_true, Bool.true_and]
        rfl
      · have same : (Tree.node kind children).tokens = tokensAll children := by
          cases kind
          case group d => exact absurd ⟨d, rfl⟩ group
          all_goals rfl
        rw [same]
        apply inside
        cases behind with
        | false => exact flows_false flow
        | true =>
            have leads : kind.leads = true := by
              have opened := free rfl
              cases kind
              case group d => exact absurd ⟨d, rfl⟩ group
              all_goals exact opened
            rwa [leads] at flow

/-! ### Sound trees -/

theorem leads_of_sound {kind : Kind} {children : List Tree} (sound : (Tree.node kind children).sound = true)
    (flow : flows false children = true) : flows kind.leads children = true := by
  obtain ⟨shape, joint, -⟩ := sound_parts sound
  cases kind
  case segment =>
    have segment : isSegment children = true := shape
    obtain ⟨name, rest, rfl⟩ := isSegment_shape segment
    simp_all [opens, ident]
  case usePath => exact joint
  case useName | useRename | useGlob | useGroup =>
    have opened : headIs opens children = true := joint
    cases children with
    | nil => cases opened
    | cons first rest =>
        have own : first.opens = true := opened
        rw [flows_cons] at flow ⊢
        rw [own]
        exact flow
  all_goals exact flow

theorem flows_of_sound {kind : Kind} {children : List Tree} (sound : (Tree.node kind children).sound = true) :
    flows false children = true := by
  obtain ⟨-, joint, -⟩ := sound_parts sound
  cases joins : kind.joins with
  | false => exact flows_of_noColons (noColons_of_soundAll (soundAll_children sound rfl joins))
  | true =>
      cases kind
      case path => exact (Bool.and_eq_true_iff.mp joint).1
      case genericArguments =>
        have bracketed : isBracketed children = true := joint
        unfold isBracketed at bracketed
        split at bracketed
        all_goals simp_all
      case callArguments =>
        have parenthesized : isParenthesized children = true := joint
        unfold isParenthesized at parenthesized
        split at parenthesized
        all_goals simp_all
      case usePath => exact flows_false joint
      case sequence | itemUse => exact joint
      case unread => exact (Bool.and_eq_true_iff.mp joint).1
      all_goals cases joins

theorem fluent_of_sound {tree : Tree} (sound : tree.sound = true) : tree.Fluent := by
  induction tree using Tree.byChildren with
  | token t => exact .token t
  | node kind children ih =>
      refine .node (leads_of_sound sound (flows_of_sound sound)) fun child member => ?_
      rcases (sound_parts sound).2.2 child member with own | ⟨-, colons⟩
      · exact ih child member own
      · obtain ⟨joint, rfl⟩ := tokens_of_isColons colons
        exact .token _

/-! ### Tokens as trees -/

variable {tree : Tree} {rest : List Tree}

theorem partsAll_tokens (sound : tree.sound = true) : partsAll (tree.tokens.map .token) = true := by
  have formed := wellFormedAll_tokens (wellFormed_of_sound sound)
  rw [wellFormedAll_eq_all, List.all_eq_true] at formed
  rw [partsAll_eq_all, List.all_eq_true]
  intro part member
  obtain ⟨t, -, rfl⟩ := List.mem_map.mp member
  have own : t.wellFormed = true := formed _ member
  cases colons : isColons (.token t) with
  | true => rfl
  | false => simp [Tree.sound, own, colons]

theorem flows_tokens_append (sound : tree.sound = true) :
    flows false (tree.tokens.map .token ++ rest) = flows false rest :=
  flows_append ((fluent_of_sound sound).flows_tokens (isColons_of_sound sound) (by simp))

end Tree

end TestDouble
