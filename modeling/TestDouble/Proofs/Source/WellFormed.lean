import TestDouble.Name
import TestDouble.Proofs.Source.Parts
/-!
# Well-formed trees

A tree may hold any children under any kind. Reading source yields only trees in which the nodes that
other parts of the library look into have the children they expect; this is what `Tree.wellFormed` tests.
-/

namespace TestDouble

/-- The words that only say where a path starts. -/
def Name.anchors : List String := ["self", "super", "crate"]

namespace Token

def wellFormed : Token → Bool
  | ident name => Name.isValid name
  | _ => true

end Token

namespace Tree

/-- A leaf, or the sign that nothing is written. -/
def isPlain : Tree → Bool
  | .token _ => true
  | .node .absent _ => true
  | _ => false

def isDeclared (tree : Tree) : Bool := Parse.isName tree || Parse.isKeyword "try" tree

/-- Whether the child at a position is the name of a declaration. -/
def namesAt (position : Nat) (children : List Tree) : Bool :=
  (children[position]?.map isDeclared).getD false

/-- A body in braces, which begins with its inner attributes. -/
def isBody : Tree → Bool
  | .node (.group .brace) (.node .attributes _ :: _) => true
  | _ => false

/-! ### The children of one kind -/

def isPath (children : List Tree) : Bool :=
  children.all fun part => part.isPlain || part.kind? == some .segment

def isSegment : List Tree → Bool
  | [.token (.ident _)] => true
  | [.token (.ident _), .node .genericArguments _] => true
  | [.token (.ident _), .node .callArguments _] => true
  | _ => false

def isArguments : List Tree → Bool
  | lead :: opening :: rest => lead.isPlain && opening.isPlain && (rest.getLast?.map isPlain).getD false
  | _ => false

def isSignature (children : List Tree) : Bool := children.length == 10 && namesAt 5 children

def isFunction : List Tree → Bool
  | [.node .attributes _, _, .node .signature _, body] => body.isBody
  | _ => false

def isMethod : List Tree → Bool
  | [_, _, _, .node .signature _, _] => true
  | _ => false

def isModule : List Tree → Bool
  | [_, _, _, _, own, content] => own.isDeclared && (content.isBody || content.isPunct ";")
  | _ => false

/-- Whether a node of a kind can have these children, as far as other parts of the library look at them. -/
def fits (kind : Kind) (children : List Tree) : Bool :=
  match kind with
  | .absent => children.isEmpty
  | .path => isPath children
  | .segment => isSegment children
  | .genericArguments => isArguments children
  | .typeObject => (children.head?.map isPlain).getD false
  | .signature => isSignature children
  | .itemFn => isFunction children
  | .implFn => isMethod children
  | .itemMod => isModule children
  | .itemTrait => namesAt 5 children
  | .itemStruct | .itemEnum | .itemUnion | .itemType => namesAt 3 children
  | _ => true

mutual

/-- Whether every token can be written and every node fits its kind. -/
def wellFormed : Tree → Bool
  | .token t => t.wellFormed
  | .node kind children => fits kind children && wellFormedAll children

def wellFormedAll : List Tree → Bool
  | [] => true
  | tree :: rest => wellFormed tree && wellFormedAll rest

end

theorem wellFormedAll_eq_all (trees : List Tree) : wellFormedAll trees = trees.all wellFormed := by
  induction trees with
  | nil => rfl
  | cons first rest ih => simp [wellFormedAll, ih]

theorem wellFormed_node {kind : Kind} {children : List Tree} :
    (Tree.node kind children).wellFormed = true ↔
      fits kind children = true ∧ ∀ child ∈ children, child.wellFormed = true := by
  rw [wellFormed, wellFormedAll_eq_all, Bool.and_eq_true, List.all_eq_true]

theorem wellFormed_fits {kind : Kind} {children : List Tree}
    (formed : (Tree.node kind children).wellFormed = true) : fits kind children = true :=
  (wellFormed_node.mp formed).1

theorem wellFormed_child {kind : Kind} {children : List Tree}
    (formed : (Tree.node kind children).wellFormed = true) {child : Tree} (member : child ∈ children) :
    child.wellFormed = true :=
  (wellFormed_node.mp formed).2 child member

theorem wellFormed_part {tree part : Tree} (formed : tree.wellFormed = true) (inside : part ∈ tree.subtrees) :
    part.wellFormed = true :=
  inherited (motive := fun part => part.wellFormed = true) (fun own => wellFormed_child own) formed inside

/-! ### What fitting says -/

/-- No declaration introduces a word that only says where a path starts. -/
theorem isDeclared_ident {name : String} (declared : (Tree.ident name).isDeclared = true) :
    name ∉ Name.anchors := by
  intro member
  simp only [Name.anchors, List.mem_cons, List.not_mem_nil, or_false] at member
  rcases member with rfl | rfl | rfl <;> exact absurd declared (by decide)

theorem namesAt_ident {position : Nat} {children : List Tree} {name : String}
    (named : namesAt position children = true) (found : children[position]? = some (Tree.ident name)) :
    name ∉ Name.anchors := by
  apply isDeclared_ident
  simpa [namesAt, found] using named

theorem isDeclared_exists {tree : Tree} (declared : tree.isDeclared = true) : ∃ name, tree = Tree.ident name := by
  unfold isDeclared Parse.isName Parse.isKeyword at declared
  split at declared
  · exact ⟨_, rfl⟩
  · rename_i other
    cases tree with
    | token t =>
        cases t with
        | ident name => exact absurd rfl (other name)
        | _ => cases declared
    | node kind children => cases declared

theorem isSegment_shape {children : List Tree} (shape : isSegment children = true) :
    ∃ name rest, children = ident name :: rest := by
  unfold isSegment at shape
  split at shape
  · exact ⟨_, _, rfl⟩
  · exact ⟨_, _, rfl⟩
  · exact ⟨_, _, rfl⟩
  · cases shape

theorem isFunction_shape {children : List Tree} (shape : isFunction children = true) :
    ∃ outer visibility parts body, children = [.node .attributes outer, visibility, .node .signature parts, body] ∧
      body.isBody = true := by
  unfold isFunction at shape
  split at shape
  · exact ⟨_, _, _, _, rfl, shape⟩
  · cases shape

theorem module_shape {children : List Tree} (formed : (Tree.node .itemMod children).wellFormed = true) :
    ∃ attributes visibility unsafety word name content,
      children = [attributes, visibility, unsafety, word, Tree.ident name, content] ∧
        name ∉ Name.anchors ∧ (content.isBody || content.isPunct ";") = true := by
  have shape : isModule children = true := wellFormed_fits formed
  unfold isModule at shape
  split at shape
  · rename_i attributes visibility unsafety word own content
    have parts := Bool.and_eq_true_iff.mp shape
    obtain ⟨name, rfl⟩ := isDeclared_exists parts.1
    exact ⟨attributes, visibility, unsafety, word, name, content, rfl, isDeclared_ident parts.1, parts.2⟩
  · cases shape

end Tree

end TestDouble
