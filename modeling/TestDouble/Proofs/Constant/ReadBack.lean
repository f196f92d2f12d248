import Mathlib
import TestDouble.Proofs.Constant.Integer
import TestDouble.Proofs.Text.Escape
/-!
# Written constants read back

The expression that is written for a constant of a simple type is read as an expression again, and a test that
configured this expression would configure the same constant. The value behind an owned string is what it is made
from. One integer is lost on the way: the least one is written as the negation of an integer that no constant holds.
-/

namespace TestDouble

namespace Tree

/-- A path from the root of all paths: `::a::b`. -/
def absolutePath (names : List String) : Tree :=
  .node .path (punct "::" :: (names.map fun name => node .segment [ident name]).intersperse (punct "::"))

def truthExpr (value : Bool) : Tree := .node .literal [noAttributes, ident (toString value)]

/-- An owned string, made from the string that an expression gives: `::std::string::String::from(argument)`. -/
def ownedExpr (argument : Tree) : Tree :=
  let callee := Tree.node .pathExpr [noAttributes, absolutePath ["std", "string", "String", "from"]]
  .node .call [noAttributes, callee, group .paren [argument]]

end Tree

namespace Grammar
open TestDouble.Tree Descriptor

def ReadsAsExpr (tokens : List Tree) (expression : Tree) : Prop :=
  readAll tokens (fun rules => rules.expr true) = some expression

variable {spelling : String}

theorem readsAsExpr_literal : ReadsAsExpr [literal spelling] (literalExpr spelling) := rfl

theorem readsAsExpr_truth (value : Bool) : ReadsAsExpr [ident (toString value)] (truthExpr value) := by
  cases value <;> rfl

theorem readsAsExpr_integer (value : Int) :
    ReadsAsExpr (signed (value < 0) (toString value.natAbs)) (integerExpr value) := by
  unfold signed integerExpr
  by_cases negative : value < 0
  · rw [if_pos (decide_eq_true negative), if_pos negative]
    rfl
  · rw [if_neg (by rwa [decide_eq_true_eq]), if_neg negative]
    rfl

theorem stringFrom_eq :
    let colons := [.token (.punct ":" true), punct ":"]
    stringFrom = colons ++ [ident "std"] ++ colons ++ [ident "string"] ++ colons ++ [ident "String"] ++ colons ++
      [ident "from"] := by
  rfl

theorem readsAsExpr_owned :
    ReadsAsExpr (stringFrom ++ [group .paren [literal spelling]]) (ownedExpr (literalExpr spelling)) := by
  -- The path is spelled out first: reading it off its text and reading the expression are too much at once.
  unfold ReadsAsExpr
  rw [stringFrom_eq]
  cbv

end Grammar

namespace ConstScope
open TestDouble.Tree

theorem evaluate_truthExpr (scope : ConstScope) (value : Bool) :
    scope.evaluate (truthExpr value) = some (.bool value) := by
  cases value <;> rfl

theorem literalValue_stringLiteral (value : String) :
    literalValue (Text.stringLiteral value) = some (.str value) := by
  rw [literalValue, LiteralValue.ofSpelling_stringLiteral]

theorem literalValue_quotedChar (value : Char) : literalValue (Text.quotedChar value) = some (.char value) := by
  rw [literalValue, LiteralValue.ofSpelling_quotedChar]

theorem evaluate_integerExpr_least (scope : ConstScope) :
    scope.evaluate (integerExpr IntKind.constantMin) = none := by
  -- The magnitude is no constant, although its negation would be one.
  have beyond : IntKind.isConstant (IntKind.constantMin.natAbs : Nat) = false := by decide
  show (literalValue (toString IntKind.constantMin.natAbs)).bind Constant.neg = none
  rw [literalValue_toString, beyond]
  rfl

end ConstScope

namespace Descriptor
open Grammar TestDouble.Tree

/-- Where an expression holds the constant: it is all of it, or what an owned string is made from. -/
inductive Holds : Descriptor → Tree → Tree → Prop where
  | itself {type : Descriptor} {expression : Tree} (plain : type ≠ str true) : Holds type expression expression
  | owned {argument : Tree} : Holds (str true) (ownedExpr argument) argument

variable {type : Descriptor} {value : Constant} {tokens : List Tree}

theorem natAbs_lt_of_bounds {kind : IntKind} {number : Int}
    (inside : kind.bounds.1 ≤ number ∧ number ≤ kind.bounds.2) (other : number ≠ IntKind.constantMin) :
    number.natAbs < 2 ^ 127 := by
  have least : IntKind.constantMin ≤ kind.bounds.1 := by cases kind <;> decide
  have greatest : kind.bounds.2 ≤ IntKind.constantMax := Int.min_le_right ..
  rw [IntKind.constantMin_eq] at least other
  rw [IntKind.constantMax_eq] at greatest
  omega

/--
The expression of a constant of a simple type reads as an expression that holds the same constant, in every scope.
The exception is the least integer, which reads as no constant at all.
-/
theorem constant?_readsBack (simple : ∀ kind, type ≠ float kind) (fits : type.constant? value = some tokens) :
    ∃ expression part, ReadsAsExpr tokens expression ∧ type.Holds expression part ∧ ∀ scope : ConstScope,
      (value ≠ .int IntKind.constantMin → scope.evaluate part = some value) ∧
        (value = .int IntKind.constantMin → scope.evaluate part = none) := by
  have held {part : Tree} (other : value ≠ .int IntKind.constantMin)
      (read : ∀ scope : ConstScope, scope.evaluate part = some value) (scope : ConstScope) :
      (value ≠ .int IntKind.constantMin → scope.evaluate part = some value) ∧
        (value = .int IntKind.constantMin → scope.evaluate part = none) :=
    ⟨fun _ => read scope, fun same => absurd same other⟩
  unfold constant? at fits
  split at fits
  case h_1 truth =>
    cases fits
    exact ⟨_, _, readsAsExpr_truth truth, .itself (nofun), held (nofun) (ConstScope.evaluate_truthExpr · truth)⟩
  case h_2 c =>
    cases fits
    have read (_ : ConstScope) := ConstScope.literalValue_quotedChar c
    exact ⟨_, _, readsAsExpr_literal, .itself (nofun), held (nofun) read⟩
  case h_3 kind number =>
    split at fits
    case isFalse => cases fits
    case isTrue inside =>
      cases fits
      rw [Bool.and_eq_true, decide_eq_true_eq, decide_eq_true_eq] at inside
      refine ⟨_, _, readsAsExpr_integer number, .itself (nofun), fun scope => ⟨fun other => ?_, ?_⟩⟩
      · have bounded := natAbs_lt_of_bounds inside fun least => other (congrArg Constant.int least)
        exact ConstScope.evaluate_integerExpr bounded scope
      · rintro ⟨⟩
        exact ConstScope.evaluate_integerExpr_least scope
  case h_4 kind _ => exact absurd rfl (simple kind)
  case h_5 kind _ => exact absurd rfl (simple kind)
  case h_6 text =>
    cases fits
    have read (_ : ConstScope) := ConstScope.literalValue_stringLiteral text
    exact ⟨_, _, readsAsExpr_owned, .owned, held (nofun) read⟩
  case h_7 text =>
    cases fits
    have read (_ : ConstScope) := ConstScope.literalValue_stringLiteral text
    exact ⟨_, _, readsAsExpr_literal, .itself (nofun), held (nofun) read⟩
  case h_8 => cases fits

/-- A NUL before a digit, a quote, a backslash and a combining mark, as an owned string. -/
theorem constant?_readsBack_string :
    let tokens := stringFrom ++ [.group .paren [literal "\"\\x007\\\"\\\\e\\u\x7b301\x7d\""]]
    ∃ expression part, ReadsAsExpr tokens expression ∧ (str true).Holds expression part ∧ ∀ scope : ConstScope,
      (Constant.str "\x007\"\\e\u0301" ≠ .int IntKind.constantMin →
          scope.evaluate part = some (.str "\x007\"\\e\u0301")) ∧
        (Constant.str "\x007\"\\e\u0301" = .int IntKind.constantMin → scope.evaluate part = none) :=
  constant?_readsBack (nofun) rfl

end Descriptor

end TestDouble
