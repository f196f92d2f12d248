import Mathlib
import TestDouble.Proofs.Constant.Derivation
import TestDouble.Proofs.Constant.Integer
import TestDouble.Proofs.Text.Escape
/-!
# Casts to integer types

A cast to an integer type takes the one value of the type that is congruent to the value cast, modulo two to the
width of the type. Constants hold every value of every type but one: of the widest type without sign they hold the
lower half, and a negative integer is cast into the upper one. So a chain of casts is a chain of reductions, and only
such a step can end it.
-/

namespace TestDouble

namespace IntKind

theorem count_pos (kind : IntKind) : 0 < kind.count := by
  cases kind <;> decide

theorem high_eq (kind : IntKind) : kind.high = kind.low + kind.count - 1 := by
  cases kind <;> decide

/-! ### Reducing -/

/-- The value of the type that is congruent to an integer modulo two to the width of the type. -/
def reduce (kind : IntKind) (value : Int) : Int := kind.low + (value - kind.low) % kind.count

theorem reduce_bounded (kind : IntKind) (value : Int) :
    kind.low ≤ kind.reduce value ∧ kind.reduce value ≤ kind.high := by
  have positive : (0 : Int) < kind.count := Int.natCast_pos.mpr kind.count_pos
  have least : 0 ≤ (value - kind.low) % kind.count := Int.emod_nonneg _ (Int.ne_of_gt positive)
  have greatest : (value - kind.low) % kind.count < kind.count := Int.emod_lt_of_pos _ positive
  rw [high_eq, reduce]
  omega

theorem reduce_congruent (kind : IntKind) (value : Int) : (kind.count : Int) ∣ kind.reduce value - value := by
  have multiple : (kind.count : Int) ∣ (value - kind.low) - (value - kind.low) % kind.count := Int.dvd_self_sub_emod
  have same : kind.reduce value - value = -((value - kind.low) - (value - kind.low) % kind.count) := by
    unfold reduce
    omega
  rw [same]
  exact (Int.dvd_neg).mpr multiple

/-- No other value of the type is congruent. -/
theorem reduce_unique {kind : IntKind} {value result : Int} (above : kind.low ≤ result) (below : result ≤ kind.high)
    (congruent : (kind.count : Int) ∣ result - value) : kind.reduce value = result := by
  obtain ⟨least, greatest⟩ := kind.reduce_bounded value
  have apart : (kind.count : Int) ∣ kind.reduce value - result := by
    have difference := Int.dvd_sub (kind.reduce_congruent value) congruent
    rwa [sub_sub_sub_cancel_right] at difference
  have near : |kind.reduce value - result| < kind.count := by
    have highest := kind.high_eq
    rw [abs_lt]
    omega
  exact Int.eq_of_sub_eq_zero (Int.eq_zero_of_abs_lt_dvd apart near)

theorem reduce_self {kind : IntKind} {value : Int} (above : kind.low ≤ value) (below : value ≤ kind.high) :
    kind.reduce value = value := by
  apply reduce_unique above below
  rw [Int.sub_self]
  exact Int.dvd_zero _

/-- Wrapping reduces an integer, and drops it if no constant can hold the result. -/
theorem wrap_eq_reduce (kind : IntKind) (value : Int) :
    kind.wrap value = if isConstant (kind.reduce value) then some (kind.reduce value) else none := by
  have reduced : kind.reduce value =
      if kind.isSigned then value.bmod kind.count else value % (kind.count : Int) := by
    by_cases signed : kind.isSigned = true
    · have low : kind.low = -(kind.count / 2 : Nat) := if_pos signed
      have high : kind.high = (kind.count / 2 : Nat) - 1 := if_pos signed
      have even : kind.count % 2 = 0 := by cases kind <;> decide
      have least := Int.le_bmod (x := value) kind.count_pos
      have greatest := Int.bmod_lt (x := value) kind.count_pos
      rw [if_pos signed]
      apply reduce_unique
      · omega
      · omega
      · exact Int.dvd_bmod_sub_self
    · have low : kind.low = 0 := if_neg signed
      have high : kind.high = (kind.count : Int) - 1 := if_neg signed
      have positive : (0 : Int) < kind.count := Int.natCast_pos.mpr kind.count_pos
      have greatest := Int.emod_lt_of_pos value positive
      rw [if_neg signed]
      apply reduce_unique
      · rw [low]
        exact Int.emod_nonneg value (Int.ne_of_gt positive)
      · omega
      · exact dvd_sub_comm.mp Int.dvd_self_sub_emod
  rw [wrap, ← reduced]

/-- Of what is reduced to a type, constants hold all but the negative integers in the widest type without sign. -/
theorem isConstant_reduce {kind : IntKind} {value : Int} (held : isConstant value = true) :
    isConstant (kind.reduce value) = true ↔ ¬(kind = u128 ∧ value < 0) := by
  rw [isConstant_iff] at held ⊢
  by_cases widest : kind = u128
  · subst widest
    have low : u128.low = 0 := by decide
    have high : u128.high = 2 ^ 128 - 1 := by decide
    by_cases negative : value < 0
    · have raised : u128.reduce value = value + 2 ^ 128 := by
        apply reduce_unique
        · omega
        · omega
        · rw [add_sub_cancel_left]
          decide
      rw [raised]
      simp only [negative, and_self, not_true_eq_false, iff_false]
      omega
    · have same : u128.reduce value = value := reduce_self (by omega) (by omega)
      rw [same]
      simp only [negative, and_false, not_false_eq_true, iff_true]
      exact held
  · have inside : -2 ^ 127 ≤ kind.low ∧ kind.high ≤ 2 ^ 127 - 1 := by
      cases kind
      case u128 => exact absurd rfl widest
      all_goals decide
    obtain ⟨above, below⟩ := kind.reduce_bounded value
    simp only [widest, false_and, not_false_eq_true, iff_true]
    exact ⟨Int.le_trans inside.1 above, Int.le_trans below inside.2⟩

theorem wrap_of_constant {kind : IntKind} {value : Int} (held : isConstant value = true) :
    kind.wrap value = if kind = u128 ∧ value < 0 then none else some (kind.reduce value) := by
  rw [wrap_eq_reduce]
  by_cases lost : kind = u128 ∧ value < 0
  · rw [if_pos lost, if_neg fun kept => (isConstant_reduce held).mp kept lost]
  · rw [if_neg lost, if_pos ((isConstant_reduce held).mpr lost)]

/-! ### Chains -/

/-- An integer reduced to one type after the other. -/
def reduceAll (kinds : List IntKind) (value : Int) : Int := kinds.foldl (fun value kind => kind.reduce value) value

/-- That a negative integer is reduced to the widest type without sign on the way. -/
def Escapes (kinds : List IntKind) (value : Int) : Prop :=
  ∃ before after, kinds = before ++ u128 :: after ∧ reduceAll before value < 0

theorem escapes_cons {kind : IntKind} {kinds : List IntKind} {value : Int} :
    Escapes (kind :: kinds) value ↔ (kind = u128 ∧ value < 0) ∨ Escapes kinds (kind.reduce value) := by
  constructor
  · rintro ⟨before, after, split, negative⟩
    cases before with
    | nil =>
        cases split
        exact .inl ⟨rfl, negative⟩
    | cons first before =>
        cases split
        exact .inr ⟨before, after, rfl, negative⟩
  · rintro (⟨rfl, negative⟩ | ⟨before, after, rfl, negative⟩)
    · exact ⟨[], kinds, rfl, negative⟩
    · exact ⟨kind :: before, after, rfl, negative⟩

theorem not_escapes_nil (value : Int) : ¬Escapes [] value := by
  rintro ⟨before, after, split, _⟩
  cases before <;> cases split

/-- A chain that is not left ends in the range of its last type, as far as constants reach. -/
theorem reduceAll_bounded {kinds : List IntKind} {last : IntKind} {value : Int} (held : isConstant value = true)
    (ends : kinds.getLast? = some last) (kept : ¬Escapes kinds value) :
    last.bounds.1 ≤ reduceAll kinds value ∧ reduceAll kinds value ≤ last.bounds.2 := by
  induction kinds generalizing value with
  | nil => cases ends
  | cons kind kinds ih =>
      rw [escapes_cons, not_or] at kept
      have next : isConstant (kind.reduce value) = true := (isConstant_reduce held).mpr kept.1
      cases kinds with
      | nil =>
          cases ends
          obtain ⟨above, below⟩ := kind.reduce_bounded value
          have greatest := (isConstant_iff.mp next).2
          rw [← constantMax_eq] at greatest
          exact ⟨above, Int.le_min.mpr ⟨below, greatest⟩⟩
      | cons second rest => exact ih next (by rwa [List.getLast?_cons_cons] at ends) kept.2

theorem reduceAll_concat_self {kinds : List IntKind} {last : IntKind} {value : Int}
    (above : last.bounds.1 ≤ reduceAll kinds value) (below : reduceAll kinds value ≤ last.bounds.2) :
    reduceAll (kinds ++ [last]) value = reduceAll kinds value := by
  have split : reduceAll (kinds ++ [last]) value = last.reduce (reduceAll kinds value) := by
    rw [reduceAll, List.foldl_append]
    rfl
  rw [split]
  exact reduce_self above (Int.le_trans below (Int.min_le_left ..))

end IntKind

/-! ### Constants that stand for integers -/

/-- The integer that a constant stands for in a cast. -/
def Constant.integer? : Constant → Option Int
  | int value => some value
  | char value => some value.toNat
  | bool value => some value.toInt
  | _ => none

theorem LiteralValue.byte_lt {spelling : String} {value : Nat} (read : ofSpelling spelling = byte value) :
    value < 1114112 := by
  unfold ofSpelling at read
  split at read
  · cases read
  · cases read
  · rename_i rest _
    cases found : inQuotes rest <;> rw [found] at read <;> cases read
  · rename_i rest _
    cases found : inQuotes rest with
    | none =>
        rw [found] at read
        cases read
    | some c =>
        rw [found] at read
        cases read
        exact toNat_lt c
  · split at read
    · unfold ofNumber at read
      split at read
      iterate 3 cases read
      split at read
      · split at read <;> cases read
      · cases read
    · cases read
  · cases read

namespace ConstScope

variable {scope : ConstScope}

theorem isConstant_of_small {value : Int} (least : 0 ≤ value) (small : value < 1114112) :
    IntKind.isConstant value = true := by
  rw [IntKind.isConstant_iff]
  omega

theorem isConstant_literalValue {spelling : String} {value : Int}
    (read : literalValue spelling = some (.int value)) : IntKind.isConstant value = true := by
  unfold literalValue at read
  split at read
  case h_3 byte found =>
    cases read
    have small := LiteralValue.byte_lt found
    exact isConstant_of_small (Int.natCast_nonneg _) (by omega)
  case h_4 number _ =>
    obtain ⟨held, same⟩ := Option.ite_none_right_eq_some.mp read
    cases same
    exact held
  all_goals cases read

theorem isConstant_of_toInt {kind : IntKind} {constant : Constant} {value : Int}
    (converted : constant.toInt kind = some value) : IntKind.isConstant value = true := by
  have wrapped : ∀ number, kind.wrap number = some value → IntKind.isConstant value = true := by
    intro number found
    obtain ⟨held, same⟩ := Option.ite_none_right_eq_some.mp found
    cases same
    exact held
  cases constant with
  | int number => exact wrapped number converted
  | char c => exact wrapped c.toNat converted
  | bool truth => exact wrapped truth.toInt converted
  | float number =>
      obtain ⟨held, same⟩ := Option.ite_none_right_eq_some.mp converted
      cases same
      exact held
  | str text => cases converted

/-- Every integer that an expression evaluates to can be held. -/
theorem Derivation.isConstant {expr : Tree} {constant : Constant} (derivation : Derivation scope expr constant) :
    ∀ value, constant = .int value → IntKind.isConstant value = true := by
  induction derivation with
  | literal read =>
      rintro value rfl
      exact isConstant_literalValue read
  | truth => exact nofun
  | paren _ ih => exact ih
  | negInt _ fits =>
      rintro value ⟨⟩
      exact fits
  | negFloat => exact nofun
  | not => exact nofun
  | cast _ _ converted =>
      rintro value rfl
      unfold Constant.cast at converted
      split at converted
      · obtain ⟨number, found, same⟩ := Option.map_eq_some_iff.mp converted
        cases same
        exact isConstant_of_toInt found
      · split at converted
        · obtain ⟨number, _, same⟩ := Option.map_eq_some_iff.mp converted
          cases same
        · cases converted
  | inBody _ _ _ ih => exact ih
  | inModule _ _ _ _ ih => exact ih

theorem isConstant_of_evaluateWithin {fuel : Nat} {expr : Tree} {found : Constant} {value : Int}
    (read : scope.evaluateWithin fuel expr = some found) (stands : found.integer? = some value) :
    IntKind.isConstant value = true := by
  cases found with
  | int number =>
      cases stands
      obtain ⟨derivation, _⟩ := Derivation.of_evaluateWithin read
      exact derivation.isConstant value rfl
  | char c =>
      cases stands
      have small := LiteralValue.toNat_lt c
      exact isConstant_of_small (Int.natCast_nonneg _) (by omega)
  | bool truth =>
      cases stands
      cases truth <;> decide
  | float number => cases stands
  | str text => cases stands

/-! ### Chains of casts -/

/-- That an expression is cast to integer types, one after the other, up to a whole expression. -/
inductive Casts : Tree → List IntKind → Tree → Prop where
  | start (expr : Tree) : Casts expr [] expr
  | next {expr attributes word type whole : Tree} {kind : IntKind} {kinds : List IntKind}
      (target : castTarget type = some kind.name)
      (rest : Casts (.node .cast [attributes, expr, word, type]) kinds whole) : Casts expr (kind :: kinds) whole

theorem evaluateWithin_cast {attributes expr word type : Tree} {kind : IntKind}
    (target : castTarget type = some kind.name) (fuel : Nat) :
    scope.evaluateWithin (fuel + 1) (.node .cast [attributes, expr, word, type]) =
      (scope.evaluateWithin fuel expr).bind fun value => (value.toInt kind).map .int := by
  have named : IntKind.ofName? kind.name = some kind := by cases kind <;> rfl
  rw [evaluateWithin_succ]
  show (scope.evaluateWithin fuel expr).bind _ = _
  congr 1
  funext value
  rw [target, Option.bind_some, Constant.cast, named]

theorem toInt_of_integer? {constant : Constant} {value : Int} (stands : constant.integer? = some value)
    (kind : IntKind) : constant.toInt kind = kind.wrap value := by
  cases constant with
  | int number | char c | bool truth =>
      cases stands
      rfl
  | float number | str text => cases stands

/-- Nothing comes back into a chain that was left. -/
theorem Casts.evaluateWithin_none {expr whole : Tree} {kinds : List IntKind} (chain : Casts expr kinds whole)
    {fuel : Nat} (left : scope.evaluateWithin fuel expr = none) :
    scope.evaluateWithin (fuel + kinds.length) whole = none := by
  induction chain generalizing fuel with
  | start expr => exact left
  | @next expr attributes word type whole kind kinds target rest ih =>
      have after : scope.evaluateWithin (fuel + 1) (.node .cast [attributes, expr, word, type]) = none := by
        rw [evaluateWithin_cast target, left, Option.bind_none]
      have total : fuel + (kind :: kinds).length = fuel + 1 + kinds.length := by
        rw [List.length_cons]
        omega
      rw [total]
      exact ih after

/-- A chain of casts reduces the integer from type to type, unless it escapes. -/
theorem Casts.evaluateWithin_eq {expr whole : Tree} {kinds : List IntKind} (chain : Casts expr kinds whole)
    (nonempty : kinds ≠ []) {fuel : Nat} {found : Constant} {value : Int}
    (read : scope.evaluateWithin fuel expr = some found) (stands : found.integer? = some value) :
    (IntKind.Escapes kinds value → scope.evaluateWithin (fuel + kinds.length) whole = none) ∧
      (¬IntKind.Escapes kinds value →
        scope.evaluateWithin (fuel + kinds.length) whole = some (.int (IntKind.reduceAll kinds value))) := by
  induction chain generalizing fuel found value with
  | start expr => exact absurd rfl nonempty
  | @next expr attributes word type whole kind kinds target rest ih =>
      have held := isConstant_of_evaluateWithin read stands
      have total : fuel + (kind :: kinds).length = fuel + 1 + kinds.length := by
        rw [List.length_cons]
        omega
      have first : scope.evaluateWithin (fuel + 1) (.node .cast [attributes, expr, word, type]) =
          (kind.wrap value).map Constant.int := by
        rw [evaluateWithin_cast target, read, Option.bind_some, toInt_of_integer? stands]
      rw [IntKind.wrap_of_constant held] at first
      rw [IntKind.escapes_cons, total]
      by_cases lost : kind = .u128 ∧ value < 0
      · rw [if_pos lost] at first
        exact ⟨fun _ => rest.evaluateWithin_none first, fun kept => absurd (.inl lost) kept⟩
      · rw [if_neg lost] at first
        rw [or_iff_right lost]
        cases kinds with
        | nil =>
            cases rest
            exact ⟨fun escapes => absurd escapes (IntKind.not_escapes_nil _), fun _ => first⟩
        | cons second kinds => exact ih (List.cons_ne_nil _ _) first rfl

/--
What a chain of casts to integer types makes of an integer, of a character or of a truth value, if the steps of the
whole are within the limit. It is no constant exactly if it casts a negative integer to the widest type without sign
on the way. Otherwise it is the integer reduced to one type after the other; this lies in the range of the last type,
which accepts it as its constant. A last cast changes nothing that is in the range of its type before.
-/
theorem evaluate_casts {expr whole : Tree} {kinds : List IntKind} (chain : Casts expr kinds whole)
    (nonempty : kinds ≠ []) {found : Constant} {value : Int}
    (read : scope.evaluateWithin (maxSteps - kinds.length) expr = some found)
    (stands : found.integer? = some value) :
    (scope.evaluate whole = none ↔
        ∃ before after, kinds = before ++ .u128 :: after ∧ IntKind.reduceAll before value < 0) ∧
      (∀ result, scope.evaluate whole = some result → result = .int (IntKind.reduceAll kinds value) ∧
        ∃ last, kinds.getLast? = some last ∧
          (last.bounds.1 ≤ IntKind.reduceAll kinds value ∧ IntKind.reduceAll kinds value ≤ last.bounds.2) ∧
          ((Descriptor.int last).constant? result).isSome = true) ∧
      ∀ before last, kinds = before ++ [last] → last.bounds.1 ≤ IntKind.reduceAll before value →
        IntKind.reduceAll before value ≤ last.bounds.2 →
        IntKind.reduceAll kinds value = IntKind.reduceAll before value := by
  have within : maxSteps - kinds.length + kinds.length = maxSteps := by
    have positive : maxSteps - kinds.length ≠ 0 := by
      intro zero
      rw [zero] at read
      cases read
    omega
  obtain ⟨escaping, keeping⟩ := chain.evaluateWithin_eq nonempty read stands
  rw [within] at escaping keeping
  have held := isConstant_of_evaluateWithin read stands
  refine ⟨⟨fun none => ?_, escaping⟩, fun result reached => ?_, ?_⟩
  · by_contra kept
    have reached := keeping kept
    rw [evaluate, reached] at none
    cases none
  · have kept : ¬IntKind.Escapes kinds value := by
      intro escapes
      rw [evaluate, escaping escapes] at reached
      cases reached
    have same : result = .int (IntKind.reduceAll kinds value) := by
      rw [evaluate, keeping kept] at reached
      cases reached
      rfl
    obtain ⟨last, ends⟩ : ∃ last, kinds.getLast? = some last :=
      ⟨_, List.getLast?_eq_some_getLast nonempty⟩
    have bounded := IntKind.reduceAll_bounded held ends kept
    refine ⟨same, last, ends, bounded, ?_⟩
    rw [same]
    rw [Descriptor.constant?_of_bounds bounded.1 bounded.2, Option.isSome_some]
  · rintro before last rfl above below
    exact IntKind.reduceAll_concat_self above below

/-- `-1 as u8 as i8` is `-1` again, which the last type accepts. -/
theorem evaluate_casts_signs :
    let whole := Tree.node .cast [Tree.noAttributes, .node .cast [Tree.noAttributes, Tree.integerExpr (-1),
      Tree.ident "as", Tree.namedType ["u8"]], Tree.ident "as", Tree.namedType ["i8"]]
    ({ body := [], module := [] } : ConstScope).evaluate whole = some (.int (-1)) ∧
      ((Descriptor.int .i8).constant? (.int (-1))).isSome = true := by
  intro whole
  have chain : Casts (Tree.integerExpr (-1)) [.u8, .i8] whole := .next rfl (.next rfl (.start whole))
  have read : ({ body := [], module := [] } : ConstScope).evaluateWithin 15 (Tree.integerExpr (-1)) =
      some (.int (-1)) := rfl
  obtain ⟨none, whenever, _⟩ := evaluate_casts chain (by decide) read rfl
  cases reached : ({ body := [], module := [] } : ConstScope).evaluate whole with
  | none =>
      obtain ⟨before, after, split, _⟩ := none.mp reached
      rcases before with _ | ⟨_, _ | ⟨_, _ | ⟨_, _⟩⟩⟩ <;> cases split
  | some result =>
      obtain ⟨same, last, ends, _, accepted⟩ := whenever result reached
      cases ends
      have value : IntKind.reduceAll [.u8, .i8] (-1) = -1 := by decide
      rw [value] at same
      subst same
      exact ⟨rfl, accepted⟩

end ConstScope

end TestDouble
