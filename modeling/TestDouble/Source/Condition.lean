import TestDouble.Source.View
/-!
# Operands in conditions

A brace behind the condition of a conditional or loop, or behind what is matched, begins the body. An
operand in such a place that could have been left out, the end of a range or the value of `break`, and that
itself begins with a block, would be read as that body: the block is written in parentheses.
-/

namespace TestDouble

/-- What the expression around an operand decides about it. -/
structure OperandContext where
  /-- A brace behind the operand begins the body of a conditional. -/
  inCondition : Bool
  /-- The operand begins where one in a condition could have been left out. -/
  omissible : Bool

namespace OperandContext

def free : OperandContext := ⟨false, false⟩

def condition : OperandContext := ⟨true, false⟩

def behind (outer : OperandContext) : OperandContext := ⟨outer.inCondition, false⟩

def rangeEnd (outer : OperandContext) : OperandContext := ⟨outer.inCondition, outer.inCondition⟩

/-- The value of `break`, which may be a structure also in a condition. -/
def breakValue (outer : OperandContext) : OperandContext := ⟨false, outer.inCondition⟩

/-- The context of a child, given the kind of its parent and the number of children before it. -/
def ofChild (outer : OperandContext) : Kind → Nat → OperandContext
  | .ifExpr, 2 | .matchExpr, 2 | .whileExpr, 3 | .forExpr, 5 => condition
  | .binary, 1 | .assign, 1 | .cast, 1 | .range, 1 => outer
  | .call, 1 | .methodCall, 1 | .field, 1 | .index, 1 | .tryExpr, 1 | .await, 1 => outer
  | .binary, 3 | .assign, 3 | .unary, 2 | .borrow, 4 | .letExpr, 4 => outer.behind
  | .range, 3 => outer.rangeEnd
  | .breakExpr, 3 => outer.breakValue
  | _, _ => free

end OperandContext

namespace Tree

def isBareBlock : Tree → Bool
  | .node .block [.node .attributes [], label, body] => label.isAbsent && body.innerAttributes.isEmpty
  | _ => false

/-- An expression in parentheses, behind attributes that belong to the whole. -/
def parenthesized (attributes : List Tree) (inner : Tree) : Tree :=
  .node .paren [.node .attributes attributes, group .paren [inner]]

mutual

/-- A tree with the parentheses that its context asks for. -/
def enclosed (context : OperandContext) : Tree → Tree
  | .token t => .token t
  | .node .unread children => .node .unread children
  | .node .arguments children => .node .arguments children
  | .node .closure children => .node .closure (enclosedBody context children)
  | .node kind children =>
    let inner := Tree.node kind (enclosedAll context kind 0 children)
    if context.omissible && isBareBlock (.node kind children) then parenthesized [] inner else inner

def enclosedAll (context : OperandContext) (kind : Kind) (index : Nat) : List Tree → List Tree
  | [] => []
  | tree :: rest =>
    enclosed (context.ofChild kind index) tree :: enclosedAll context kind (index + 1) rest

/-- The children of a closure, the last of which is its body. -/
def enclosedBody (context : OperandContext) : List Tree → List Tree
  | [] => []
  | [body] => [enclosed context.behind body]
  | tree :: rest => enclosed .free tree :: enclosedBody context rest

end

theorem enclosed_other {kind : Kind} (read : kind ≠ .unread) (reread : kind ≠ .arguments) (other : kind ≠ .closure)
    (context : OperandContext) (children : List Tree) :
    enclosed context (.node kind children) =
      if context.omissible && isBareBlock (.node kind children) then
        parenthesized [] (.node kind (enclosedAll context kind 0 children))
      else .node kind (enclosedAll context kind 0 children) := by
  rw [enclosed]
  · exact read
  · exact reread
  · exact other

theorem length_enclosedAll (context : OperandContext) (kind : Kind) (index : Nat) (trees : List Tree) :
    (enclosedAll context kind index trees).length = trees.length := by
  induction trees generalizing index with
  | nil => rfl
  | cons first rest ih => simp [enclosedAll, ih]

end Tree

end TestDouble
