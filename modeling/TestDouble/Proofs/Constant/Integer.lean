import Mathlib
import TestDouble.Proofs.Constant.Form
import TestDouble.Proofs.Source.Plain
import TestDouble.Specification
/-!
# Integer literals

The decimal digits of a natural number read back as the number. So an integer of any type, written in decimal
digits behind its sign, is the constant that is configured for a method with this type as its result, if a
constant can hold its magnitude. Only the upper half of the widest type without sign lies above that; there the
literal is no constant.
-/

namespace TestDouble

namespace LiteralValue
open TestDouble.Text

variable {chars : List Char}

/-- Digits are read as such: no underscore is left out, and none ends the number. -/
theorem digitsIn_digits (digits : ∀ c ∈ chars, c.isDigit = true) :
    digitsIn 10 chars = Nat.ofDigitChars 10 chars 0 := by
  have value : ∀ c ∈ chars, Lexer.hexValue c = c.toNat - 48 := by
    intro c member
    rw [Lexer.hexValue, if_pos (show Identifier.isAsciiDigit c = true from digits c member)]
  have kept : chars.filter (· ≠ '_') = chars := by
    rw [List.filter_eq_self]
    intro c member
    rw [decide_eq_true_iff]
    rintro rfl
    cases digits '_' member
  have taken : chars.takeWhile (fun c => Lexer.isHex c && Lexer.hexValue c < 10) = chars := by
    rw [List.takeWhile_eq_self_iff]
    intro c member
    have digit := digits c member
    have bound : c.toNat ≤ 57 := of_decide_eq_true (Bool.and_eq_true_iff.mp digit).2
    have hex : Lexer.isHex c = true := by
      rw [Lexer.isHex, show Identifier.isAsciiDigit c = true from digit]
      rfl
    rw [hex, value c member, Bool.true_and, decide_eq_true_iff]
    omega
  rw [Nat.ofDigitChars_eq_foldl]
  unfold digitsIn
  rw [kept, taken]
  refine List.foldl_ext _ _ 0 fun number c member => ?_
  rw [value c member, Nat.mul_comm]
  rfl

theorem isFloating_digits (digits : ∀ c ∈ chars, c.isDigit = true) : isFloating chars = false := by
  have nothing : chars.dropWhile (fun c => Identifier.isAsciiDigit c || c = '_') = [] := by
    rw [List.dropWhile_eq_nil_iff]
    intro c member
    rw [show Identifier.isAsciiDigit c = true from digits c member, Bool.true_or]
  rw [isFloating, nothing]

theorem ofNumber_digits (digits : ∀ c ∈ chars, c.isDigit = true) :
    ofNumber chars = integer (Nat.ofDigitChars 10 chars 0) := by
  unfold ofNumber
  split
  case h_1 => cases digits 'x' (by simp)
  case h_2 => cases digits 'o' (by simp)
  case h_3 => cases digits 'b' (by simp)
  case h_4 => rw [isFloating_digits digits, digitsIn_digits digits]; rfl

theorem ofSpelling_digits (some : chars ≠ []) (digits : ∀ c ∈ chars, c.isDigit = true) :
    ofSpelling (String.ofList chars) = ofNumber chars := by
  unfold ofSpelling
  rw [String.toList_ofList]
  split
  case h_1 => cases digits '"' (List.mem_cons_self ..)
  case h_2 => cases digits 'r' (List.mem_cons_self ..)
  case h_3 => cases digits '\'' (List.mem_cons_self ..)
  case h_4 => cases digits 'b' (List.mem_cons_self ..)
  case h_5 c rest _ _ _ _ => exact if_pos (digits c (List.mem_cons_self ..))
  case h_6 => cases some rfl

/-- The decimal digits of a number spell the number. -/
theorem ofSpelling_toString (number : Nat) : ofSpelling (toString number) = integer number := by
  have digits : ∀ c ∈ Nat.toDigits 10 number, c.isDigit = true :=
    fun c member => Nat.isDigit_of_mem_toDigits (by decide) (by decide) member
  calc ofSpelling (toString number)
      _ = ofNumber (Nat.toDigits 10 number) := ofSpelling_digits Nat.toDigits_ne_nil digits
      _ = integer (Nat.ofDigitChars 10 (Nat.toDigits 10 number) 0) := ofNumber_digits digits
      _ = integer number := by rw [Nat.ofDigitChars_ten_toDigits]

end LiteralValue

namespace Tree

/-- An integer in decimal digits, behind its sign if it is negative. -/
def integerExpr (value : Int) : Tree :=
  let magnitude := literalExpr (toString value.natAbs)
  if value < 0 then .node .unary [noAttributes, punct "-", magnitude] else magnitude

end Tree

namespace IntKind

theorem constantMin_eq : constantMin = -2 ^ 127 := by decide

theorem constantMax_eq : constantMax = 2 ^ 127 - 1 := by decide

theorem isConstant_iff {value : Int} : isConstant value = true ↔ -2 ^ 127 ≤ value ∧ value ≤ 2 ^ 127 - 1 := by
  rw [isConstant, Bool.and_eq_true, decide_eq_true_iff, decide_eq_true_iff, constantMin_eq, constantMax_eq]

end IntKind

namespace ConstScope

variable {value : Int}

theorem isConstant_natAbs (bounded : value.natAbs < 2 ^ 127) :
    IntKind.isConstant value.natAbs = true ∧ IntKind.isConstant value = true := by
  rw [IntKind.isConstant_iff, IntKind.isConstant_iff]
  omega

theorem literalValue_toString (number : Nat) :
    literalValue (toString number) = if IntKind.isConstant number then some (.int number) else none := by
  rw [literalValue, LiteralValue.ofSpelling_toString]

theorem evaluate_integerExpr (bounded : value.natAbs < 2 ^ 127) (scope : ConstScope) :
    scope.evaluate (Tree.integerExpr value) = some (.int value) := by
  obtain ⟨magnitude, whole⟩ := isConstant_natAbs bounded
  have read : literalValue (toString value.natAbs) = some (.int value.natAbs) := by
    rw [literalValue_toString, if_pos magnitude]
  unfold Tree.integerExpr
  by_cases negative : value < 0
  · rw [if_pos negative]
    show (literalValue (toString value.natAbs)).bind Constant.neg = _
    have same : -(value.natAbs : Int) = value := by omega
    rw [read, Option.bind_some, Constant.neg, same, if_pos whole]
  · rw [if_neg negative]
    show literalValue (toString value.natAbs) = _
    have same : (value.natAbs : Int) = value := by omega
    rw [read, same]

/-- No constant holds an integer this great. -/
theorem evaluate_integerExpr_large (large : 2 ^ 127 ≤ value) (scope : ConstScope) :
    scope.evaluate (Tree.integerExpr value) = none := by
  have positive : ¬value < 0 := by omega
  have beyond : IntKind.isConstant value.natAbs = false := by
    rw [Bool.eq_false_iff, ne_eq, IntKind.isConstant_iff]
    omega
  unfold Tree.integerExpr
  rw [if_neg positive]
  show literalValue (toString value.natAbs) = none
  rw [literalValue_toString, beyond]
  rfl

end ConstScope

namespace IntKind

theorem eq_u128_of_high {kind : IntKind} (large : 2 ^ 127 ≤ kind.high) : kind = u128 := by
  cases kind
  case u128 => rfl
  all_goals exact absurd large (by decide)

end IntKind

namespace Descriptor

variable {kind : IntKind} {value : Int}

theorem constant?_of_bounds (above : kind.bounds.1 ≤ value) (below : value ≤ kind.bounds.2) :
    (int kind).constant? (.int value) = some (signed (value < 0) (toString value.natAbs)) := by
  rw [constant?, decide_eq_true above, decide_eq_true below]
  rfl

theorem constant?_int (above : kind.low ≤ value) (below : value ≤ kind.high) (bounded : value.natAbs < 2 ^ 127) :
    (int kind).constant? (.int value) = some (signed (value < 0) (toString value.natAbs)) := by
  apply constant?_of_bounds above
  apply Int.le_min.mpr ⟨below, ?_⟩
  rw [IntKind.constantMax_eq]
  omega

end Descriptor

namespace Specification

/-- What is no constant configures nothing. -/
theorem configuredConstant_unread {scope : ConstScope} {argument : Tree} (unread : scope.evaluate argument = none)
    (signature : Tree) (type : Descriptor) :
    configuredConstant scope signature type (some (some argument)) = .ok none := by
  simp only [configuredConstant, unread]

/--
Every integer of a type whose magnitude a constant can hold is configured as it is written, and the type has an
expression for it. Above this, only the widest type without sign has values; what is written for them configures
nothing.
-/
theorem configuredConstant_integer {kind : IntKind} {value : Int} (above : kind.low ≤ value)
    (below : value ≤ kind.high) :
    let argument := Tree.integerExpr value
    (value.natAbs < 2 ^ 127 → ∀ scope : ConstScope, scope.evaluate argument = some (.int value) ∧
        (Descriptor.int kind).constant? (.int value) =
          some (Descriptor.signed (value < 0) (toString value.natAbs)) ∧
        ∀ signature, configuredConstant scope signature (.int kind) (some (some argument)) =
          .ok (some (.int value))) ∧
      (2 ^ 127 ≤ value → kind = .u128 ∧ ∀ scope : ConstScope, scope.evaluate argument = none ∧
        ∀ signature, configuredConstant scope signature (.int kind) (some (some argument)) = .ok none) := by
  intro argument
  refine ⟨fun bounded scope => ?_, fun large => ⟨?_, fun scope => ?_⟩⟩
  · have read : scope.evaluate argument = some (.int value) := ConstScope.evaluate_integerExpr bounded scope
    have expressed := Descriptor.constant?_int above below bounded
    refine ⟨read, expressed, fun signature => ?_⟩
    simp only [configuredConstant, read, expressed, Option.isSome_some, if_true]
  · exact IntKind.eq_u128_of_high (Int.le_trans large below)
  · have unread : scope.evaluate argument = none := ConstScope.evaluate_integerExpr_large large scope
    exact ⟨unread, fun signature => configuredConstant_unread unread signature _⟩

/-- The least integer of 64 bits and the greatest of 128 bits without sign. -/
theorem configuredConstant_ends :
    configuredConstant { body := [], module := [] } Tree.absent (.int .i64)
        (some (some (Tree.integerExpr (-9223372036854775808)))) = .ok (some (.int (-9223372036854775808))) ∧
      configuredConstant { body := [], module := [] } Tree.absent (.int .u128)
        (some (some (Tree.integerExpr 340282366920938463463374607431768211455))) = .ok none := by
  obtain ⟨held, _⟩ := @configuredConstant_integer .i64 (-9223372036854775808) (by decide) (by decide)
  obtain ⟨_, lost⟩ := @configuredConstant_integer .u128 340282366920938463463374607431768211455
    (by decide) (by decide)
  obtain ⟨_, _, least⟩ := held (by decide) { body := [], module := [] }
  obtain ⟨_, greatest⟩ := (lost (by decide)).2 { body := [], module := [] }
  exact ⟨least _, greatest _⟩

/-- The greatest integer of 128 bits without sign is lost, although the type has it. -/
theorem configuredConstant_lost :
    IntKind.low .u128 ≤ 340282366920938463463374607431768211455 ∧
      340282366920938463463374607431768211455 ≤ IntKind.high .u128 ∧
      ({ body := [], module := [] } : ConstScope).evaluate
        (Tree.integerExpr 340282366920938463463374607431768211455) = none ∧
      configuredConstant { body := [], module := [] } Tree.absent (.int .u128)
        (some (some (Tree.integerExpr 340282366920938463463374607431768211455))) = .ok none := by
  have large : (2 : Int) ^ 127 ≤ 340282366920938463463374607431768211455 := by decide
  have unread := ConstScope.evaluate_integerExpr_large large { body := [], module := [] }
  exact ⟨by decide, by decide, unread, configuredConstant_unread unread Tree.absent _⟩

end Specification

end TestDouble
