import TestDouble.Proofs.Source.Rules.Pattern
import TestDouble.Source.Grammar.Expr
/-!
# Expressions are sound

Attributes that are put in front of an expression leave it sound, since no kind of node that begins with
attributes looks into them.
-/

set_option mvcgen.warning false

namespace TestDouble

namespace Tree

theorem fits_attributes {kind : Kind} (own other rest : List Tree) :
    fits kind (.node .attributes own :: rest) = fits kind (.node .attributes other :: rest) := by
  cases kind
  case genericArguments =>
    simp only [fits]
    unfold isArguments
    grind [isPlain]
  case itemFn =>
    simp only [fits]
    unfold isFunction
    grind
  case implFn =>
    simp only [fits]
    unfold isMethod
    grind
  case itemMod =>
    simp only [fits]
    unfold isModule
    grind
  all_goals rfl

theorem joined_attributes {kind : Kind} (own other rest : List Tree) :
    joined kind (.node .attributes own :: rest) = joined kind (.node .attributes other :: rest) := by
  cases kind
  case genericArguments => cases rest <;> rfl
  case callArguments => rcases rest with _ | ⟨_, _ | ⟨_, _ | _⟩⟩ <;> rfl
  case unread => simp [joined]
  all_goals rfl

theorem sound_attributes {own : List Tree} :
    (node .attributes own).sound = true ↔ soundAll own = true := by
  simp [sound_eq, fits, joined, Kind.joins]

theorem soundAll_of_attributes {tree : Tree} (formed : tree.sound = true)
    (kind : tree.kind? = some .attributes) : soundAll tree.children = true :=
  soundAll_children formed kind rfl

theorem sound_addAttributes {attrs : List Tree} {tree : Tree} (given : soundAll attrs = true)
    (formed : tree.sound = true) : (addAttributes attrs tree).sound = true := by
  unfold addAttributes
  split
  · exact formed
  · rename_i kind own rest _
    rw [sound_eq, fits_attributes _ own, joined_attributes _ own]
    rw [sound_eq] at formed
    simp only [Bool.and_eq_true, partsAll_cons, soundAll_cons, isColons_node, Bool.false_or] at formed ⊢
    refine ⟨formed.1, ?_⟩
    have below := formed.2
    split at below
    all_goals
      rename_i joins
      rw [Bool.and_eq_true, sound_attributes] at below
      simp [joins, sound_attributes, given, below.1, below.2]
  · exact formed

theorem sound_addLeftAttributes {attrs : List Tree} {tree : Tree} (given : soundAll attrs = true)
    (formed : tree.sound = true) : (addLeftAttributes attrs tree).sound = true := by
  fun_induction addLeftAttributes attrs tree
  case case4 => exact sound_addAttributes given formed
  all_goals simp_all [sound_eq, fits, joined, Kind.joins]

end Tree

namespace Grammar
open Parse

attribute [local simp] Round.Keeps Tree.sound_eq Tree.fits Tree.joined Kind.joins Kind.opens Kind.leads plain noAttributes

variable {g : Grammar} [Sound g]

/-! ### Operators -/

@[spec] theorem nextPrecedence_reads : Peeks nextPrecedence := by
  mvcgen [nextPrecedence]
  all_goals simp_all

@[spec] theorem rightOperand_reads {structs : Bool} {precedence : Precedence} :
    ReadsTree (rightOperand g structs precedence) := by
  mvcgen [rightOperand]
  all_goals simp_all

@[spec] theorem rangeEnds_reads {structs : Bool} : Peeks (rangeEnds structs) := by
  mvcgen [rangeEnds]
  all_goals simp_all

@[spec] theorem rangeTail_reads {structs : Bool} : ReadsTrees (rangeTail g structs) := by
  mvcgen [rangeTail]
  all_goals simp_all

@[spec] theorem attachesToCast_reads : Peeks attachesToCast := by
  mvcgen [attachesToCast]

theorem operatorAt_apart {trees : List Tree} {text : String} {precedence : Precedence}
    (found : operatorAt trees = some (text, precedence)) : text ≠ "::" := by
  have apart : ∀ entry ∈ binaryOperators, entry.1 ≠ "::" := by decide
  exact apart _ (List.mem_of_find?_eq_some found)

theorem climbRule_reads {structs : Bool} {base : Precedence} {first : Tree} (formed : first.sound = true) :
    ReadsTree (climbRule g structs base first) := by
  mvcgen [climbRule]
  all_goals simp_all
  exact operatorAt_apart ‹operatorAt _ = some _›

/-! ### Attachments, blocks and control flow -/

@[spec] theorem member_reads {operand dot : Tree} (formed : operand.sound = true) (point : dot.sound = true)
    (mark : dot.isMark = true) : ReadsTree (member g operand dot) := by
  mvcgen [member]
  all_goals simp_all

@[spec] theorem dotted_reads {operand : Tree} (formed : operand.sound = true) :
    ReadsTree (dotted g operand) := by
  mvcgen [dotted]
  all_goals simp_all

@[spec] theorem attachments_reads {first : Tree} (formed : first.sound = true) :
    ReadsTree (attachments g first) := by
  mvcgen [attachments]
  all_goals simp_all

@[spec] theorem blockExpr_reads {attrs label : Tree} (formed : attrs.sound = true) (named : label.sound = true) :
    ReadsTree (blockExpr g attrs label) := by
  mvcgen [blockExpr]
  all_goals simp_all

@[spec] theorem ifRule_reads : ReadsTree (ifRule g) := by
  mvcgen [ifRule]
  all_goals simp_all +zetaDelta

@[spec] theorem arm_reads : ReadsTree (arm g) := by
  mvcgen [arm]
  all_goals simp_all +zetaDelta

@[spec] theorem labelled_reads {attrs label : Tree} (formed : attrs.sound = true) (named : label.sound = true) :
    ReadsTree (labelled g attrs label) := by
  mvcgen [labelled]
  all_goals simp_all +zetaDelta

@[spec] theorem label_reads : ReadsTree label := by
  mvcgen [label]
  all_goals simp_all

/-! ### Operands -/

@[spec] theorem canBegin_reads : Peeks canBegin := by
  mvcgen [canBegin]
  all_goals simp_all

@[spec] theorem fieldValue_reads : ReadsTree (fieldValue g) := by
  mvcgen [fieldValue]
  all_goals simp_all [sees, Tree.ident_of_isName]

@[spec] theorem fieldValues_reads : ReadsTrees (fieldValues g) := by
  mvcgen [fieldValues]
  all_goals simp_all

@[spec] theorem pathOrInvocation_reads {structs : Bool} : ReadsTree (pathOrInvocation g structs) := by
  mvcgen [pathOrInvocation]
  all_goals simp_all

@[spec] theorem parenthesised_reads : ReadsTree (parenthesised g) := by
  mvcgen [parenthesised]
  all_goals simp_all

@[spec] theorem bracketed_reads : ReadsTree (bracketed g) := by
  mvcgen [bracketed]
  all_goals simp_all

@[spec] theorem closureInput_reads : ReadsTree (closureInput g) := by
  mvcgen [closureInput]
  all_goals simp_all
  split <;> simp_all

@[spec] theorem closure_reads {structs : Bool} : ReadsTree (closure g structs) := by
  mvcgen [closure]
  all_goals simp_all +zetaDelta

@[spec] theorem letExpr_reads {structs : Bool} : ReadsTree (letExpr g structs) := by
  mvcgen [letExpr]
  all_goals simp_all +zetaDelta

@[spec] theorem breakExpr_reads {structs : Bool} : ReadsTree (breakExpr g structs) := by
  mvcgen [breakExpr]
  all_goals simp_all

@[spec] theorem valueAfter_reads {kind : Kind} {text : String} (own : kind = .returnExpr ∨ kind = .yieldExpr) :
    ReadsTree (valueAfter g kind text) := by
  rcases own with rfl | rfl
  all_goals mvcgen [valueAfter]
  all_goals simp_all

@[spec] theorem matchExpr_reads : ReadsTree (matchExpr g) := by
  mvcgen [matchExpr]
  all_goals simp_all +zetaDelta

@[spec] theorem operand_reads {structs : Bool} : ReadsTree (operand g structs) := by
  refine Reads.bind rest_reads fun trees before => ?_
  extract_lets second third keyed
  -- Which operand it is plays no part, so the tests are passed without keeping how they end.
  repeat' first
    | with_reducible refine Reads.ite ?_ ?_
    | with_reducible refine Reads.bind choosesGenerics_reads fun _ _ => ?_
    | with_reducible refine Reads.bind seesPathWord_reads fun _ _ => ?_
  all_goals mvcgen
  all_goals simp_all +zetaDelta

theorem unaryRule_reads {structs : Bool} : ReadsTree (unaryRule g structs) := by
  mvcgen [unaryRule]
  all_goals simp_all +zetaDelta [Tree.sound_addAttributes, Tree.soundAll_of_attributes]

theorem exprRule_reads {structs : Bool} : ReadsTree (exprRule g structs) := by
  mvcgen [exprRule]
  all_goals simp_all

theorem earlyRule_reads : ReadsTree (earlyRule g) := by
  mvcgen [earlyRule]
  all_goals simp_all +zetaDelta [Tree.sound_addAttributes, Tree.soundAll_of_attributes]

end Grammar

end TestDouble
