import TestDouble.Constant.Scope
/-!
# What a value rests on

An expression has its value of itself, or takes it over from one operand, or from the constant that it
names. So evaluation never branches: it asks for one constant after the other, and which one comes next is
settled before any value is known.
-/

namespace TestDouble.ConstScope

/-- What the value of an expression rests on. -/
inductive Form where
  /-- The value is there at once, or there is none. -/
  | known (value : Option Constant)
  | applied (operation : Constant → Option Constant) (operand : Tree)
  | named (name : String)

namespace Form

def ofTree : Tree → Form
  | .node .literal [_, .token (.literal spelling)] => known (literalValue spelling)
  | .node .literal [_, .token (.ident word)] => known (some (.bool (word == "true")))
  | .node .paren [_, .node (.group .paren) [inner]] => applied some inner
  | .node .unary [_, .token (.punct "-" _), operand] => applied Constant.neg operand
  | .node .unary [_, .token (.punct "!" _), operand] => applied Constant.not operand
  | .node .cast [_, operand, _, type] =>
    applied (fun value => (castTarget type).bind fun target => value.cast target) operand
  | .node .pathExpr [_, path] => ((constantName path).map named).getD (known none)
  | _ => known none

theorem ofTree_path {attributes path : Tree} {name : String} (single : constantName path = some name) :
    ofTree (.node .pathExpr [attributes, path]) = named name := by
  rw [ofTree, single]
  rfl

/-- A string passes through no operation, except for the one that changes nothing. -/
theorem operation_str {expr operand : Tree} {operation : Constant → Option Constant}
    (form : ofTree expr = applied operation operand) :
    operation = some ∨ ∀ text, operation (.str text) = none := by
  unfold ofTree at form
  split at form
  case h_3 =>
      cases form
      exact .inl rfl
  case h_4 =>
      cases form
      exact .inr fun _ => rfl
  case h_5 =>
      cases form
      exact .inr fun _ => rfl
  case h_6 type =>
      cases form
      refine .inr fun text => ?_
      cases castTarget type with
      | none => rfl
      | some target =>
          show Constant.cast target (.str text) = none
          rw [Constant.cast]
          split
          · rfl
          · split <;> rfl
  case h_7 path =>
      cases named : constantName path with
      | none =>
          rw [named] at form
          cases form
      | some name =>
          rw [named] at form
          cases form
  all_goals cases form

end Form

theorem lookup_of_body {scope : ConstScope} {name : String} {initializer : Tree}
    (declared : last? name scope.body = some initializer) : scope.lookup name = some initializer := by
  rw [lookup, declared, Option.some_or]

theorem lookup_of_module {scope : ConstScope} {name : String} (undeclared : last? name scope.body = none) :
    scope.lookup name = last? name scope.module := by
  rw [lookup, undeclared, Option.none_or]

theorem evaluateWithin_succ (scope : ConstScope) (fuel : Nat) (expr : Tree) :
    scope.evaluateWithin (fuel + 1) expr =
      match Form.ofTree expr with
      | .known value => value
      | .applied operation operand => (scope.evaluateWithin fuel operand).bind operation
      | .named name => (scope.lookup name).bind (scope.evaluateWithin fuel) := by
  conv => lhs; unfold evaluateWithin
  split
  case h_3 => exact (Option.bind_fun_some _).symm
  case h_7 path =>
      dsimp only [Form.ofTree]
      cases constantName path <;> rfl
  case h_8 => rw [Form.ofTree] <;> assumption
  all_goals rfl

/-- That evaluation asks for a constant, at so many steps below an expression. -/
inductive Needs (scope : ConstScope) : Nat → Tree → String → Prop where
  | name {expr : Tree} {name : String} (form : Form.ofTree expr = .named name) : Needs scope 0 expr name
  | operand {depth : Nat} {expr operand : Tree} {operation : Constant → Option Constant} {name : String}
      (form : Form.ofTree expr = .applied operation operand) (below : Needs scope depth operand name) :
      Needs scope (depth + 1) expr name
  | initializer {depth : Nat} {expr initializer : Tree} {first name : String}
      (form : Form.ofTree expr = .named first) (found : scope.lookup first = some initializer)
      (below : Needs scope depth initializer name) : Needs scope (depth + 1) expr name

end TestDouble.ConstScope
