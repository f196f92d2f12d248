import TestDouble.Proofs.Source.Fluent
/-!
# What the surroundings of a tree see of it

Whether children are well arranged under a node depends on little of each child: on a token as a whole, of a
node on whether it begins with a token of its own. So an arrangement is kept when the children are rewritten
with what is *alike* to them.
-/

namespace TestDouble

namespace Tree

/-- That a tree may take the place of another one: a token only its own, a node that of another kind at most
if the other does not begin with a token of its own. -/
inductive Alike : Tree → Tree → Prop where
  | token (t : Token) : Alike (.token t) (.token t)
  | absent : Alike absent absent
  | node {kind other : Kind} {children others : List Tree} (present : Tree.node other others ≠ Tree.absent)
      (same : other.opens = true → kind = other) : Alike (.node kind children) (.node other others)

namespace Alike

variable {new old : Tree}

theorem isColons (alike : Alike new old) : new.isColons = old.isColons := by
  cases alike <;> rfl

theorem opens (alike : Alike new old) (opened : old.opens = true) : new.opens = true := by
  cases alike with
  | token t => rfl
  | absent => exact opened
  | node _ same =>
      rw [same opened]
      exact opened

theorem isMark (alike : Alike new old) (mark : old.isMark = true) : new.isMark = true := by
  cases alike with
  | token t => exact mark
  | absent => rfl
  | node present _ =>
      unfold Tree.isMark at mark
      split at mark
      · rename_i same
        cases same
      · rename_i same
        exact absurd same present
      · cases mark

theorem isGroup (alike : Alike new old) (group : old.isGroup = true) : new.isGroup = true := by
  cases alike with
  | token t => exact group
  | absent => exact group
  | @node kind other _ _ _ same =>
      cases other
      case group d =>
        rw [same rfl]
        rfl
      all_goals cases group

theorem isKeyword {text : String} (alike : Alike new old) (word : Parse.isKeyword text old = true) :
    Parse.isKeyword text new = true := by
  cases alike with
  | token t => exact word
  | absent => exact word
  | node _ _ => cases word

theorem segment (alike : Alike new old) (segment : (old.kind? == some .segment) = true) :
    (new.kind? == some .segment) = true := by
  cases alike with
  | token t => exact segment
  | absent => exact segment
  | @node kind other _ _ _ same =>
      have own : other = .segment := by simpa using segment
      subst own
      rw [same rfl]
      rfl

theorem refl (tree : Tree) : Alike tree tree := by
  cases tree with
  | token t => exact .token t
  | node kind children =>
      by_cases none : Tree.node kind children = Tree.absent
      · rw [none]
        exact .absent
      · exact .node none fun _ => rfl

theorem trans {middle : Tree} (first : Alike new middle) (second : Alike middle old) : Alike new old := by
  cases second with
  | token t => exact first
  | absent => exact first
  | node present same =>
      cases first with
      | absent => exact .node present fun opened => same opened
      | node _ inner =>
          refine .node present fun opened => ?_
          have same := same opened
          subst same
          exact inner opened

end Alike

/-! ### Arrangements -/

/-- That the children of a node of a kind are arranged as in source. -/
structure Arranged (kind : Kind) (children : List Tree) : Prop where
  joint : kind ≠ .variant → kind ≠ .unread → joined kind children = true
  apart : kind.joins = false → noColons children = true
  flow : flows kind.leads children = true

theorem arranged_of_sound {kind : Kind} {children : List Tree} (sound : (Tree.node kind children).sound = true) :
    Arranged kind children where
  joint _ _ := (sound_parts sound).2.1
  apart apart := noColons_of_soundAll (soundAll_children sound rfl apart)
  flow := leads_of_sound sound (flows_of_sound sound)

section
variable {rewritten : Tree → Tree} {children : List Tree} {behind : Bool} {kind : Kind}

theorem flows_map (alike : ∀ child ∈ children, Alike (rewritten child) child) (flow : flows behind children = true) :
    flows behind (children.map rewritten) = true := by
  induction children generalizing behind with
  | nil => exact flow
  | cons first rest ih =>
      have own := alike first List.mem_cons_self
      rw [flows_cons, Bool.and_eq_true] at flow
      rw [List.map_cons, flows_cons, own.isColons, ih (fun child member => alike child (List.mem_cons_of_mem _ member)) flow.2,
        Bool.and_true]
      cases behind with
      | false => rfl
      | true => exact own.opens flow.1

theorem noColons_map (alike : ∀ child ∈ children, Alike (rewritten child) child) (none : noColons children = true) :
    noColons (children.map rewritten) = true := by
  rw [noColons_eq_all, List.all_eq_true] at none ⊢
  intro tree member
  obtain ⟨child, inside, rfl⟩ := List.mem_map.mp member
  rw [(alike child inside).isColons]
  exact none child inside

theorem headIs_map {property : Tree → Bool}
    (kept : ∀ child ∈ children, property child = true → property (rewritten child) = true)
    (found : headIs property children = true) : headIs property (children.map rewritten) = true := by
  cases children with
  | nil => exact found
  | cons first rest => exact kept first List.mem_cons_self found

theorem headIs_drop_map {property : Tree → Bool} {count : Nat}
    (kept : ∀ child ∈ children, property child = true → property (rewritten child) = true)
    (found : headIs property (children.drop count) = true) :
    headIs property ((children.map rewritten).drop count) = true := by
  rw [← List.map_drop]
  exact headIs_map (fun child member => kept child (List.mem_of_mem_drop member)) found

theorem joined_map (alike : ∀ child ∈ children, Alike (rewritten child) child) (other : kind ≠ .variant)
    (read : kind ≠ .unread) (joint : joined kind children = true) : joined kind (children.map rewritten) = true := by
  cases kind
  case variant => exact absurd rfl other
  case unread => exact absurd rfl read
  case path =>
    have parts := Bool.and_eq_true_iff.mp joint
    exact Bool.and_eq_true_iff.mpr ⟨flows_map alike parts.1,
      headIs_drop_map (fun child member => (alike child member).segment) parts.2⟩
  case genericArguments =>
    rcases children with _ | ⟨lead, _ | ⟨opening, rest⟩⟩
    · exact joint
    · exact joint
    · have parts := Bool.and_eq_true_iff.mp joint
      refine Bool.and_eq_true_iff.mpr ⟨(alike opening (by simp)).opens parts.1, ?_⟩
      exact noColons_map (fun child member => alike child (List.mem_cons_of_mem _ member)) parts.2
  case callArguments =>
    have shape : isParenthesized children = true := joint
    unfold isParenthesized at shape
    split at shape
    · rename_i lead inputs result
      rw [Bool.and_eq_true, Bool.and_eq_true, Bool.not_eq_true'] at shape
      simp only [joined, List.map_cons, List.map_nil, isParenthesized_parts, Bool.and_eq_true, Bool.not_eq_true']
      exact ⟨⟨(alike lead (by simp)).isMark shape.1.1, (alike inputs (by simp)).isGroup shape.1.2⟩,
        ((alike result (by simp)).isColons).trans shape.2⟩
    · cases shape
  case generics =>
    have parts := Bool.and_eq_true_iff.mp joint
    refine Bool.and_eq_true_iff.mpr ⟨headIs_map (fun child member => (alike child member).isMark) parts.1, ?_⟩
    rw [← List.map_reverse]
    exact headIs_map (fun child member => (alike child (List.mem_reverse.mp member)).isMark) parts.2
  case bounds => exact headIs_map (fun child member => (alike child member).isMark) joint
  case whereClause => exact headIs_map (fun child member => (alike child member).isKeyword) joint
  case field => exact headIs_drop_map (fun child member => (alike child member).isMark) joint
  case usePath => exact flows_map alike joint
  case useName | useRename | useGlob | useGroup =>
    exact headIs_map (fun child member => (alike child member).opens) joint
  case sequence | itemUse => exact flows_map alike joint
  all_goals rfl

theorem Arranged.map (arranged : Arranged kind children)
    (alike : ∀ child ∈ children, Alike (rewritten child) child) : Arranged kind (children.map rewritten) where
  joint other read := joined_map alike other read (arranged.joint other read)
  apart apart := noColons_map alike (arranged.apart apart)
  flow := flows_map alike arranged.flow

end

end Tree

end TestDouble
