import TestDouble.Proofs.Source.Rules.Type
import TestDouble.Source.Grammar.Pattern
/-!
# Patterns are sound
-/

set_option mvcgen.warning false

namespace TestDouble.Grammar
open Parse

attribute [local simp] Round.Keeps Tree.sound_eq Tree.fits Tree.joined Kind.joins Kind.opens Kind.leads

variable {g : Grammar} [Sound g]

@[spec] theorem seesAlternative_reads : Peeks seesAlternative := by
  mvcgen [seesAlternative]

@[spec] theorem alternatives_reads : ReadsTree (alternatives g) := by
  mvcgen [alternatives]
  all_goals simp_all

@[spec] theorem anyPattern_reads : ReadsTree (anyPattern g) := by
  mvcgen [anyPattern]
  all_goals simp_all

@[spec] theorem rangeBound_reads : ReadsTree (rangeBound g) := by
  mvcgen [rangeBound]
  all_goals simp_all

@[spec] theorem rangeDots_reads {old : Bool} : ReadsTree (rangeDots old) := by
  mvcgen [rangeDots]
  all_goals simp_all

@[spec] theorem rangeFrom_reads {start : Tree} (formed : start.sound = true) :
    ReadsTree (rangeFrom g start) := by
  mvcgen [rangeFrom]
  all_goals simp_all

@[spec] theorem namePattern_reads : ReadsTree (namePattern g) := by
  mvcgen [namePattern]
  all_goals simp_all +zetaDelta

@[spec] theorem memberName_reads : ReadsTree memberName := by
  mvcgen [memberName]
  all_goals simp_all

@[spec] theorem fieldPattern_reads : ReadsTree (fieldPattern g) := by
  mvcgen [fieldPattern]
  all_goals simp_all +zetaDelta

@[spec] theorem fieldPatterns_reads : ReadsTrees (fieldPatterns g) := by
  mvcgen [fieldPatterns]
  all_goals simp_all

@[spec] theorem pathPattern_reads : ReadsTree (pathPattern g) := by
  mvcgen [pathPattern]
  all_goals simp_all

theorem patternRule_reads : ReadsTree (patternRule g) := by
  mvcgen [patternRule]
  all_goals simp_all

end TestDouble.Grammar
