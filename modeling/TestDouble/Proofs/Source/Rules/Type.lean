import TestDouble.Proofs.Source.Rules.Path
import TestDouble.Source.Grammar.Type
/-!
# Types are sound
-/

set_option mvcgen.warning false

namespace TestDouble.Grammar
open Parse

attribute [local simp] Round.Keeps Tree.sound_eq Tree.fits Tree.joined Kind.joins Kind.opens Kind.leads

variable {g : Grammar} [Sound g]

@[spec] theorem withCalls_reads {path : Tree} (formed : path.sound = true) : ReadsTree (withCalls g path) := by
  refine iterate_reads_tree formed fun path formed => ?_
  refine Reads.bind seesCallArguments_reads fun sees _ => Reads.ite ?_ ?_
  · refine Reads.bind callArguments_reads fun arguments given => ?_
    have extended := sound_withCallArguments formed given.1 given.2
    dsimp only
    generalize withCallArguments path arguments = longer at extended
    split
    · refine Reads.ite ?_ ?_
      all_goals mvcgen
      all_goals simp_all [PathParts]
    · mvcgen
  · mvcgen

@[spec] theorem typePath_reads : ReadsTree (typePath g) := by
  refine Reads.bind qualifiedPath_reads fun path formed => ?_
  split
  · rename_i children
    have parts := Tree.soundAll_children formed rfl rfl
    split
    · rename_i last found
      have front := Tree.soundAll_sublist (List.dropLast_sublist children) parts
      have kept := Tree.soundAll_sublist (List.singleton_sublist.mpr (List.mem_of_getLast? found)) parts
      mvcgen
      all_goals simp_all
    · mvcgen
      simp_all
  · mvcgen
    simp_all

@[spec] theorem moreBounds_reads : ReadsTrees (moreBounds g) := by
  mvcgen [moreBounds]
  all_goals simp_all

@[spec] theorem parenType_reads {plus : Bool} : ReadsTree (parenType g plus) := by
  mvcgen [parenType]
  all_goals simp_all +zetaDelta
  split <;> simp_all

@[spec] theorem functionTypeInput_reads {attrs : Tree} (formed : attrs.sound = true) {first : Bool} :
    ReadsTree (functionTypeInput g attrs first) := by
  mvcgen [functionTypeInput]
  all_goals simp_all

@[spec] theorem abi_reads : ReadsTree abi := by
  mvcgen [abi]
  all_goals simp_all

@[spec] theorem functionType_reads {binder : Tree} (formed : binder.sound = true) :
    ReadsTree (functionType g binder) := by
  mvcgen [functionType]
  all_goals simp_all +zetaDelta

theorem typeRule_reads {plus : Bool} : ReadsTree (typeRule g plus) := by
  mvcgen [typeRule]
  all_goals simp_all +zetaDelta

end TestDouble.Grammar
