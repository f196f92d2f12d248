import Mathlib.Logic.IsEmpty.Defs
import TestDouble.Proofs.Constant.Form
/-!
# Derivations of values

The rules by which an expression has a value, whatever the number of nested steps. An expression has at most
one value by them, and evaluation finds it if the derivation nests no deeper than it may go. Where a
constant rests on itself there is no derivation at all.
-/

namespace TestDouble.ConstScope

/-- How an expression comes to a value. A name is looked for in the body first, then in the module. -/
inductive Derivation (scope : ConstScope) : Tree → Constant → Type where
  | literal {attributes : Tree} {spelling : String} {value : Constant}
      (read : literalValue spelling = some value) :
      Derivation scope (.node .literal [attributes, .token (.literal spelling)]) value
  | truth (attributes : Tree) (word : String) :
      Derivation scope (.node .literal [attributes, .token (.ident word)]) (.bool (word == "true"))
  | paren {attributes inner : Tree} {value : Constant} (below : Derivation scope inner value) :
      Derivation scope (.node .paren [attributes, .node (.group .paren) [inner]]) value
  | negInt {attributes operand : Tree} {joint : Bool} {value : Int} (below : Derivation scope operand (.int value))
      (fits : IntKind.isConstant (-value) = true) :
      Derivation scope (.node .unary [attributes, .token (.punct "-" joint), operand]) (.int (-value))
  | negFloat {attributes operand : Tree} {joint : Bool} {value : BinaryFloat}
      (below : Derivation scope operand (.float value)) :
      Derivation scope (.node .unary [attributes, .token (.punct "-" joint), operand]) (.float value.neg)
  | not {attributes operand : Tree} {joint value : Bool} (below : Derivation scope operand (.bool value)) :
      Derivation scope (.node .unary [attributes, .token (.punct "!" joint), operand]) (.bool !value)
  | cast {attributes operand word type : Tree} {target : String} {value result : Constant}
      (below : Derivation scope operand value) (named : castTarget type = some target)
      (converted : value.cast target = some result) :
      Derivation scope (.node .cast [attributes, operand, word, type]) result
  | inBody {attributes path initializer : Tree} {name : String} {value : Constant}
      (named : constantName path = some name) (declared : last? name scope.body = some initializer)
      (below : Derivation scope initializer value) : Derivation scope (.node .pathExpr [attributes, path]) value
  | inModule {attributes path initializer : Tree} {name : String} {value : Constant}
      (named : constantName path = some name) (undeclared : last? name scope.body = none)
      (declared : last? name scope.module = some initializer) (below : Derivation scope initializer value) :
      Derivation scope (.node .pathExpr [attributes, path]) value

namespace Derivation

variable {scope : ConstScope} {expr : Tree} {value : Constant}

/-- The number of nested steps. -/
def steps {expr : Tree} {value : Constant} : Derivation scope expr value → Nat
  | literal _ | truth .. => 1
  | paren below | negInt below _ | negFloat below | not below | cast below _ _ | inBody _ _ below
  | inModule _ _ _ below => below.steps + 1

end Derivation

section

variable {scope : ConstScope} {expr : Tree} {value : Constant}

/-- That evaluation finds a value exactly within the limits that allow so many steps. -/
def Takes (scope : ConstScope) (steps : Nat) (expr : Tree) (value : Constant) : Prop :=
  ∀ fuel, scope.evaluateWithin fuel expr = if steps ≤ fuel then some value else none

theorem takes_known (form : Form.ofTree expr = .known (some value)) : scope.Takes 1 expr value := by
  intro fuel
  cases fuel with
  | zero => rfl
  | succ fuel => rw [evaluateWithin_succ, form, if_pos (Nat.le_add_left 1 fuel)]

theorem takes_applied {steps : Nat} {operand : Tree} {operation : Constant → Option Constant} {inner : Constant}
    (form : Form.ofTree expr = .applied operation operand) (below : scope.Takes steps operand inner)
    (result : operation inner = some value) : scope.Takes (steps + 1) expr value := by
  intro fuel
  cases fuel with
  | zero => rfl
  | succ fuel =>
      rw [evaluateWithin_succ, form]
      show (scope.evaluateWithin fuel operand).bind operation = _
      rw [below fuel]
      by_cases enough : steps ≤ fuel
      · rw [if_pos enough, if_pos (Nat.succ_le_succ enough), Option.bind_some, result]
      · rw [if_neg enough, if_neg fun more => enough (Nat.le_of_succ_le_succ more), Option.bind_none]

theorem takes_named {steps : Nat} {name : String} {initializer : Tree} (form : Form.ofTree expr = .named name)
    (found : scope.lookup name = some initializer) (below : scope.Takes steps initializer value) :
    scope.Takes (steps + 1) expr value := by
  intro fuel
  cases fuel with
  | zero => rfl
  | succ fuel =>
      rw [evaluateWithin_succ, form]
      show (scope.lookup name).bind (scope.evaluateWithin fuel) = _
      rw [found, Option.bind_some, below fuel]
      by_cases enough : steps ≤ fuel
      · rw [if_pos enough, if_pos (Nat.succ_le_succ enough)]
      · rw [if_neg enough, if_neg fun more => enough (Nat.le_of_succ_le_succ more)]

namespace Derivation

/-- A derivation says both the value and the steps. -/
theorem takes (derivation : Derivation scope expr value) : scope.Takes derivation.steps expr value := by
  induction derivation with
  | literal read => exact takes_known (congrArg Form.known read)
  | truth attributes word => exact takes_known rfl
  | paren below ih => exact takes_applied rfl ih rfl
  | negInt below fits ih => exact takes_applied rfl ih (if_pos fits)
  | negFloat below ih => exact takes_applied rfl ih rfl
  | not below ih => exact takes_applied rfl ih rfl
  | cast below named converted ih =>
      refine takes_applied rfl ih ?_
      rw [named, Option.bind_some, converted]
  | inBody named declared below ih =>
      exact takes_named (Form.ofTree_path named) (lookup_of_body declared) ih
  | inModule named undeclared declared below ih =>
      exact takes_named (Form.ofTree_path named) ((lookup_of_module undeclared).trans declared) ih

/-- Every value that is found has a derivation within the limit. -/
theorem of_evaluateWithin {fuel : Nat} (found : scope.evaluateWithin fuel expr = some value) :
    ∃ derivation : Derivation scope expr value, derivation.steps ≤ fuel := by
  induction fuel generalizing expr value with
  | zero => cases found
  | succ fuel ih =>
      unfold evaluateWithin at found
      split at found
      · exact ⟨.literal found, Nat.le_add_left 1 fuel⟩
      · cases found
        exact ⟨.truth _ _, Nat.le_add_left 1 fuel⟩
      · obtain ⟨below, within⟩ := ih found
        exact ⟨.paren below, Nat.succ_le_succ within⟩
      · obtain ⟨inner, operand, negated⟩ := Option.bind_eq_some_iff.mp found
        obtain ⟨below, within⟩ := ih operand
        cases inner with
        | int number =>
            obtain ⟨fits, result⟩ := Option.ite_none_right_eq_some.mp negated
            cases result
            exact ⟨.negInt below fits, Nat.succ_le_succ within⟩
        | float number =>
            cases negated
            exact ⟨.negFloat below, Nat.succ_le_succ within⟩
        | _ => cases negated
      · obtain ⟨inner, operand, negated⟩ := Option.bind_eq_some_iff.mp found
        obtain ⟨below, within⟩ := ih operand
        cases inner with
        | bool truth =>
            cases negated
            exact ⟨.not below, Nat.succ_le_succ within⟩
        | _ => cases negated
      · obtain ⟨inner, operand, converted⟩ := Option.bind_eq_some_iff.mp found
        obtain ⟨target, named, result⟩ := Option.bind_eq_some_iff.mp converted
        obtain ⟨below, within⟩ := ih operand
        exact ⟨.cast below named result, Nat.succ_le_succ within⟩
      · obtain ⟨name, named, rest⟩ := Option.bind_eq_some_iff.mp found
        obtain ⟨initializer, declared, inner⟩ := Option.bind_eq_some_iff.mp rest
        obtain ⟨below, within⟩ := ih inner
        cases own : last? name scope.body with
        | some shadowing =>
            rw [lookup_of_body own] at declared
            cases declared
            exact ⟨.inBody named own below, Nat.succ_le_succ within⟩
        | none =>
            rw [lookup_of_module own] at declared
            exact ⟨.inModule named own declared below, Nat.succ_le_succ within⟩
      · cases found

end Derivation

/-! ### Constants that rest on themselves -/

/-- A value needs the constants it asks for, and they have theirs within smaller limits. -/
theorem value_of_needs {depth : Nat} {name : String} (needs : scope.Needs depth expr name) {fuel : Nat}
    (found : scope.evaluateWithin fuel expr = some value) :
    ∃ initializer, scope.lookup name = some initializer ∧
      ∃ less < fuel, ∃ inner, scope.evaluateWithin less initializer = some inner := by
  induction needs generalizing fuel value with
  | name form =>
      cases fuel with
      | zero => cases found
      | succ fuel =>
          rw [evaluateWithin_succ, form] at found
          obtain ⟨initializer, declared, inner⟩ := Option.bind_eq_some_iff.mp found
          exact ⟨initializer, declared, fuel, Nat.lt_succ_self fuel, value, inner⟩
  | operand form below ih =>
      cases fuel with
      | zero => cases found
      | succ fuel =>
          rw [evaluateWithin_succ, form] at found
          obtain ⟨inner, operand, _⟩ := Option.bind_eq_some_iff.mp found
          obtain ⟨initializer, declared, less, smaller, rest⟩ := ih operand
          exact ⟨initializer, declared, less, Nat.lt_succ_of_lt smaller, rest⟩
  | initializer form declared below ih =>
      cases fuel with
      | zero => cases found
      | succ fuel =>
          rw [evaluateWithin_succ, form] at found
          obtain ⟨first, same, inner⟩ := Option.bind_eq_some_iff.mp found
          rw [declared] at same
          cases same
          obtain ⟨initializer, found, less, smaller, rest⟩ := ih inner
          exact ⟨initializer, found, less, Nat.lt_succ_of_lt smaller, rest⟩

end

/-- That the initializer of a constant needs the constant. -/
def RestsOnItself (scope : ConstScope) (name : String) : Prop :=
  ∃ initializer, scope.lookup name = some initializer ∧ ∃ depth, scope.Needs depth initializer name

theorem evaluateWithin_circular {scope : ConstScope} {name : String} {initializer : Tree}
    (declared : scope.lookup name = some initializer) {depth : Nat} (needs : scope.Needs depth initializer name)
    (fuel : Nat) : scope.evaluateWithin fuel initializer = none := by
  induction fuel using Nat.strongRecOn with
  | ind fuel ih =>
      cases found : scope.evaluateWithin fuel initializer with
      | none => rfl
      | some value =>
          obtain ⟨own, same, less, smaller, inner, again⟩ := value_of_needs needs found
          rw [declared] at same
          cases same
          rw [ih less smaller] at again
          cases again

end TestDouble.ConstScope
