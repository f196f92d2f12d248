import TestDouble.Constant.Value
import TestDouble.Source.Literal
import TestDouble.Source.View
/-!
# Constants in scope

A test sees the constants declared in its own body and those of its module, in this order; of several
declarations of one name the last one counts. `evaluate` follows names and conversions up to a fixed
depth; everything else is no constant.
-/

namespace TestDouble

/-- The declarations of constants, each with its value, in the order of the source. -/
structure ConstScope where
  body : List (String × Tree)
  module : List (String × Tree)

namespace ConstScope

mutual

/--
The constants declared anywhere in a tree, except inside functions of their own and in what an
invocation is given.
-/
def declared : Tree → List (String × Tree)
  | .token _ => []
  | .node .itemFn _ => []
  | .node .unread _ => []
  | .node .arguments _ => []
  | .node kind children => (Tree.node kind children).constant?.toList ++ declaredAll children

def declaredAll : List Tree → List (String × Tree)
  | [] => []
  | tree :: rest => declared tree ++ declaredAll rest

end

theorem declaredAll_eq_flatMap (trees : List Tree) : declaredAll trees = trees.flatMap declared := by
  induction trees with
  | nil => rfl
  | cons first rest ih => simp [declaredAll, ih]

/-- The scope of a function body in a module with the given constant items. -/
def ofBody (body : Tree) (module : List Tree) : ConstScope :=
  { body := declaredAll body.statements, module := module.filterMap Tree.constant? }

def last? (name : String) (declarations : List (String × Tree)) : Option Tree :=
  declarations.reverse.lookup name

def lookup (scope : ConstScope) (name : String) : Option Tree :=
  (last? name scope.body).or (last? name scope.module)

/-- The constant that a path names: one segment, or one behind `self`. -/
def constantName (path : Tree) : Option String :=
  match path.names with
  | [name] => some name
  | ["self", name] => some name
  | _ => none

def literalValue (spelling : String) : Option Constant :=
  match LiteralValue.ofSpelling spelling with
  | .text value _ => some (.str value)
  | .char value => some (.char value)
  | .byte value => some (.int value)
  | .integer value => if IntKind.isConstant value then some (.int value) else none
  | .float value => some (.float (BinaryFloat.ofDecimal .binary64 false value.digits value.exponent))
  | .other => none

/-- The name of the type that a value is converted to. -/
def castTarget (type : Tree) : Option String :=
  type.asPath?.bind Tree.onlyName?

/-- The value of an expression, by at most `fuel` nested steps. -/
def evaluateWithin (scope : ConstScope) : (fuel : Nat) → Tree → Option Constant
  | 0, _ => none
  | fuel + 1, expr =>
    match expr with
    | .node .literal [_, .token (.literal spelling)] => literalValue spelling
    | .node .literal [_, .token (.ident word)] => some (.bool (word == "true"))
    | .node .paren [_, .node (.group .paren) [inner]] => scope.evaluateWithin fuel inner
    | .node .unary [_, .token (.punct "-" _), operand] =>
      (scope.evaluateWithin fuel operand).bind Constant.neg
    | .node .unary [_, .token (.punct "!" _), operand] =>
      (scope.evaluateWithin fuel operand).bind Constant.not
    | .node .cast [_, operand, _, type] =>
      (scope.evaluateWithin fuel operand).bind fun value =>
        (castTarget type).bind fun target => value.cast target
    | .node .pathExpr [_, path] =>
      (constantName path).bind fun name =>
        (scope.lookup name).bind fun value => scope.evaluateWithin fuel value
    | _ => none

def maxSteps : Nat := 17

/-- The value of an expression, if it is a constant. -/
def evaluate (scope : ConstScope) (expr : Tree) : Option Constant :=
  scope.evaluateWithin maxSteps expr

end ConstScope

end TestDouble
