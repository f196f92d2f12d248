import TestDouble.Proofs.Source.Children
import TestDouble.Proofs.Source.WellFormed
/-!
# Where `::` stands

In what is read from source, `::` stands in paths and imports and in front of arguments in angle brackets or
parentheses, and nowhere else. What stands behind it begins with a token of its own, and no node ends with it.
So no expression stands behind `::`. A tree is *sound* if this holds all through it, and it is well-formed.
-/

namespace TestDouble

namespace Kind

/-- The kinds of nodes whose first child begins with a token of its own. -/
def leads : Kind → Bool
  | .segment | .usePath | .useName | .useRename | .useGlob | .useGroup => true
  | _ => false

/-- The kinds of nodes that begin with a token of their own. -/
def opens : Kind → Bool
  | .group _ => true
  | kind => kind.leads

/-- The kinds of nodes that may have `::` among their children. -/
def joins : Kind → Bool
  | .path | .genericArguments | .callArguments | .usePath | .sequence | .itemUse | .unread => true
  | _ => false

end Kind

namespace Tree

def opens : Tree → Bool
  | .token _ => true
  | .node kind _ => kind.opens

def isColons (tree : Tree) : Bool := tree.isPunct "::"

def isGroup : Tree → Bool
  | .node (.group _) _ => true
  | _ => false

/-- Punctuation, or nothing in its place. -/
def isMark : Tree → Bool
  | .token (.punct _ _) => true
  | .node .absent [] => true
  | _ => false

mutual

/-- Whether a tree has no calls in it. -/
def isStill : Tree → Bool
  | .token _ => true
  | .node kind children => !([Kind.call, .methodCall, .arguments].contains kind) && isStillAll children

def isStillAll : List Tree → Bool
  | [] => true
  | tree :: rest => isStill tree && isStillAll rest

end

mutual

/-- Whether a tree is a token or a group of such trees. -/
def isRaw : Tree → Bool
  | .token _ => true
  | .node (.group _) children => isRawAll children
  | .node _ _ => false

def isRawAll : List Tree → Bool
  | [] => true
  | tree :: rest => isRaw tree && isRawAll rest

end

/--
Whether trees may follow one another: only what begins with a token of its own stands behind `::`, and `::`
does not come last. With `behind`, the first of them stands behind `::`.
-/
def flows (behind : Bool) : List Tree → Bool
  | [] => !behind
  | tree :: rest => (!behind || tree.opens) && flows tree.isColons rest

def noColons : List Tree → Bool
  | [] => true
  | tree :: rest => !tree.isColons && noColons rest

def headIs (property : Tree → Bool) (children : List Tree) : Bool := (children.head?.map property).getD false

def isBracketed : List Tree → Bool
  | _ :: opening :: rest => opening.opens && noColons (opening :: rest)
  | _ => false

def isParenthesized : List Tree → Bool
  | [lead, inputs, result] => lead.isMark && inputs.isGroup && !result.isColons
  | _ => false

def isEnclosed (children : List Tree) : Bool := headIs isMark children && headIs isMark children.reverse

/-- What is asked of the children of a node beside that they fit its kind. -/
def joined (kind : Kind) (children : List Tree) : Bool :=
  match kind with
  | .path => flows false children && headIs (fun part => part.kind? == some .segment) (children.drop 1)
  | .genericArguments => isBracketed children
  | .callArguments => isParenthesized children
  | .generics => isEnclosed children
  | .bounds => headIs isMark children
  | .whereClause => headIs (Parse.isKeyword "where") children
  | .field => headIs isMark (children.drop 2)
  | .variant => headIs isStill (children.drop 1)
  | .usePath => flows true children
  | .useName | .useRename | .useGlob | .useGroup => headIs opens children
  | .sequence | .itemUse => flows false children
  | .unread => flows false children && isRawAll children
  | _ => true

mutual

def sound : Tree → Bool
  | .token t => t.wellFormed && !isColons (.token t)
  | .node kind children =>
    fits kind children && joined kind children && if kind.joins then partsAll children else soundAll children

def soundAll : List Tree → Bool
  | [] => true
  | tree :: rest => sound tree && soundAll rest

/-- Whether trees are sound, apart from `::` among them. -/
def partsAll : List Tree → Bool
  | [] => true
  | tree :: rest => (isColons tree || sound tree) && partsAll rest

end

theorem soundAll_eq_all (trees : List Tree) : soundAll trees = trees.all sound := by
  induction trees with
  | nil => rfl
  | cons first rest ih => simp [soundAll, ih]

theorem partsAll_eq_all (trees : List Tree) :
    partsAll trees = trees.all fun tree => isColons tree || sound tree := by
  induction trees with
  | nil => rfl
  | cons first rest ih => simp [partsAll, ih]

theorem wellFormed_of_isColons {tree : Tree} (colons : tree.isColons = true) : tree.wellFormed = true := by
  unfold isColons isPunct at colons
  split at colons
  · rfl
  · cases colons

theorem sound_parts {kind : Kind} {children : List Tree} (sound : (Tree.node kind children).sound = true) :
    fits kind children = true ∧ joined kind children = true ∧
      ∀ child ∈ children, child.sound = true ∨ (kind.joins = true ∧ child.isColons = true) := by
  rw [Tree.sound] at sound
  have shape := Bool.and_eq_true_iff.mp sound
  refine ⟨(Bool.and_eq_true_iff.mp shape.1).1, (Bool.and_eq_true_iff.mp shape.1).2, ?_⟩
  have below := shape.2
  split at below
  · rename_i joins
    rw [partsAll_eq_all, List.all_eq_true] at below
    intro child member
    rcases Bool.or_eq_true_iff.mp (below child member) with colons | own
    · exact .inr ⟨joins, colons⟩
    · exact .inl own
  · rw [soundAll_eq_all, List.all_eq_true] at below
    exact fun child member => .inl (below child member)

theorem wellFormed_of_sound {tree : Tree} (sound : tree.sound = true) : tree.wellFormed = true := by
  induction tree using Tree.byChildren with
  | token t =>
      rw [Tree.sound, Bool.and_eq_true] at sound
      exact sound.1
  | node kind children ih =>
      obtain ⟨shape, -, below⟩ := sound_parts sound
      refine wellFormed_node.mpr ⟨shape, fun child member => ?_⟩
      rcases below child member with own | ⟨-, colons⟩
      · exact ih child member own
      · exact wellFormed_of_isColons colons

theorem wellFormedAll_tokens {tree : Tree} (formed : tree.wellFormed = true) :
    wellFormedAll (tree.tokens.map .token) = true := by
  induction tree using Tree.byChildren with
  | token t => simpa [tokens, wellFormedAll] using formed
  | node kind children ih =>
      have parts : wellFormedAll ((tokensAll children).map .token) = true := by
        rw [tokensAll_eq_flatMap, wellFormedAll_eq_all, List.all_map, List.all_flatMap, List.all_eq_true]
        intro child member
        have kept := ih child member (wellFormed_child formed member)
        rwa [wellFormedAll_eq_all, List.all_map] at kept
      cases kind
      case group d => simpa [tokens, wellFormedAll_eq_all, wellFormed, Token.wellFormed] using parts
      all_goals exact parts

end Tree

end TestDouble
