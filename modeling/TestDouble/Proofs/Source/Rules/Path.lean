import TestDouble.Proofs.Source.Reads
import TestDouble.Source.Grammar.Path
/-!
# Paths, attributes and generics are sound

Each rule is shown to read sound trees if the rules that it uses do, which is assumed of the record that
the rules take.
-/

set_option mvcgen.warning false

namespace TestDouble.Grammar
open Parse

attribute [local simp] Round.Keeps Tree.sound_eq Tree.fits Tree.joined Kind.joins Kind.opens Kind.leads

/-- Every rule reads sound trees, a block is one in braces, and an import begins with a token of its own. -/
class Sound (g : Grammar) : Prop where
  path : ∀ inExpr, ReadsTree (g.path inExpr)
  type : ∀ plus, ReadsTree (g.type plus)
  pattern : ReadsTree g.pattern
  expr : ∀ structs, ReadsTree (g.expr structs)
  unary : ∀ structs, ReadsTree (g.unary structs)
  climb : ∀ structs base left, left.sound = true → ReadsTree (g.climb structs base left)
  ifExpr : ReadsTree g.ifExpr
  early : ReadsTree g.early
  block : ∀ inner, Reads (g.block inner) fun tree => tree.sound = true ∧ tree.isBody = true
  item : ReadsTree g.item
  useTree : ∀ rooted, Reads (g.useTree rooted) fun tree => tree.sound = true ∧ tree.opens = true
  parameter : ReadsTree g.parameter
  field : ReadsTree g.field

attribute [spec] Sound.path Sound.type Sound.pattern Sound.expr Sound.unary
  Sound.climb Sound.ifExpr Sound.early Sound.block Sound.item Sound.useTree
  Sound.parameter Sound.field

variable {g : Grammar} [Sound g]

/-! ### Paths without arguments, attributes, invocations -/

@[spec] theorem seesPathWord_reads : Peeks seesPathWord := by
  mvcgen [seesPathWord]

@[spec] theorem plainPath_reads : Reads plainPath fun tree => tree.sound = true ∧ tree.isStill = true := by
  mvcgen [plainPath, -iterate_reads_trees, iterate_reads_segments]
  all_goals simp_all +zetaDelta [PathOpen, PathSegments]

@[spec] theorem attributeRest_reads : ReadsTrees (attributeRest g) := by
  refine Reads.bind peekAny_reads fun _ _ => Reads.ite ?_ (Reads.bind peekOp_reads fun _ _ =>
    Reads.ite (Reads.bind op_reads fun eq sign => Reads.bind rest_reads fun trees formed => Reads.ite ?_ ?_) ?_)
  all_goals mvcgen
  all_goals simp_all

@[spec] theorem metaItem_reads : ReadsTrees (metaItem g) := by
  mvcgen [metaItem]
  all_goals simp_all

@[spec] theorem outerAttribute_reads : ReadsTree (outerAttribute g) := by
  mvcgen [outerAttribute]
  all_goals simp_all

@[spec] theorem outerAttributes_reads :
    Reads (outerAttributes g) fun tree => tree.sound = true ∧ tree.kind? = some .attributes := by
  mvcgen [outerAttributes]
  all_goals simp_all

@[spec] theorem innerAttribute_reads : ReadsTree (innerAttribute g) := by
  mvcgen [innerAttribute]
  all_goals simp_all

@[spec] theorem innerAttributes_reads :
    Reads (innerAttributes g) fun tree => tree.sound = true ∧ tree.kind? = some .attributes := by
  mvcgen [innerAttributes]
  all_goals simp_all

@[spec] theorem invocationBody_reads : ReadsTree (invocationBody g) := by
  refine Reads.bind anyGroup_reads fun group formed => ?_
  split
  · rename_i delimiter content
    have inner := Tree.raw_group.mp formed
    split
    · rename_i children read
      have kept := reads_iff.mp (commaList_reads (Sound.expr true)) content children [] inner read
      mvcgen
      simp_all
    · mvcgen
      simp_all [Tree.Raw]
  · mvcgen
    simp_all [Tree.Raw]

@[spec] theorem invocation_reads {path : Tree} (formed : path.sound = true) :
    ReadsTree (invocation g path) := by
  mvcgen [invocation]
  all_goals simp_all

/-! ### Paths with arguments -/

@[spec] theorem takenSince_reads {before : List Tree} (formed : Tree.Raw before) :
    Reads (takenSince before) fun tree => tree.sound = true ∧ Tree.Raw tree.children := by
  have taken (count : Nat) : Tree.Raw (before.take count) := Tree.raw_sublist (List.take_sublist count before) formed
  mvcgen [takenSince]
  simp_all [Tree.Raw]

@[spec] theorem constArgument_reads : ReadsTree (constArgument g) := by
  mvcgen [constArgument]
  all_goals simp_all

@[spec] theorem binder_reads : ReadsTree (binder g) := by
  mvcgen [binder]
  all_goals simp_all +zetaDelta

@[spec] theorem returns_reads {plus : Bool} : ReadsTree (returns g plus) := by
  mvcgen [returns]
  all_goals simp_all

@[spec] theorem callArguments_reads :
    Reads (callArguments g) fun tree => tree.sound = true ∧ tree.kind? = some .callArguments := by
  mvcgen [callArguments]
  all_goals simp_all

theorem sound_withCallArguments {path arguments : Tree} (formed : path.sound = true)
    (kept : arguments.sound = true) (kind : arguments.kind? = some .callArguments) :
    (withCallArguments path arguments).sound = true := by
  unfold withCallArguments
  split
  · rename_i children
    split
    · rename_i own rest last
      obtain ⟨front, rfl⟩ : ∃ front, children = front ++ [Tree.node .segment (own :: rest)] :=
        ⟨children.dropLast, (List.dropLast_append_getLast? _ last).symm⟩
      have word : own.ident?.isSome = true := by
        have segment : Tree.isSegment (own :: rest) = true := by simp_all
        exact Tree.ident_of_isSegment segment
      simp_all
    · exact formed
  · exact formed

@[spec] theorem seesCallArguments_reads : Peeks seesCallArguments := by
  mvcgen [seesCallArguments]

@[spec] theorem constness_reads : ReadsTree constness := by
  mvcgen [constness]
  all_goals simp_all

@[spec] theorem traitBound_reads : ReadsTrees (traitBound g) := by
  mvcgen [traitBound]
  all_goals simp_all [sound_withCallArguments]

@[spec] theorem bound_reads {capture const : Bool} : ReadsTree (bound g capture const) := by
  mvcgen [bound]
  all_goals simp_all +zetaDelta

@[spec] theorem genericArgument_reads : ReadsTree (genericArgument g) := by
  mvcgen [genericArgument]
  all_goals simp_all +zetaDelta

@[spec] theorem genericArguments_reads :
    Reads (genericArguments g) fun tree => tree.sound = true ∧ tree.kind? = some .genericArguments := by
  mvcgen [genericArguments]
  all_goals simp_all +zetaDelta

@[spec] theorem segment_reads {inExpr : Bool} :
    Reads (segment g inExpr) fun tree => tree.sound = true ∧ tree.kind? = some .segment := by
  mvcgen [segment]
  all_goals simp_all

@[spec] theorem moreSegments_reads {inExpr : Bool} :
    Reads (moreSegments g inExpr) PathParts := by
  mvcgen [moreSegments, -iterate_reads_trees, iterate_reads_path]
  all_goals simp_all [PathFound, PathParts]

theorem pathRule_reads {inExpr : Bool} : ReadsTree (pathRule g inExpr) := by
  mvcgen [pathRule]
  all_goals simp_all [PathParts]

@[spec] theorem qualifiedPath_reads {inExpr : Bool} : ReadsTree (qualifiedPath g inExpr) := by
  mvcgen [qualifiedPath, -iterate_reads_trees, iterate_reads_path]
  all_goals simp_all [PathFound, PathParts]

/-! ### Parameters and bounds of a declaration -/

@[spec] theorem lifetimeParameter_reads {attrs : Tree} (formed : attrs.sound = true) :
    ReadsTree (lifetimeParameter attrs) := by
  mvcgen [lifetimeParameter]
  all_goals simp_all

@[spec] theorem defaultValue_reads {value : Parse Tree} (reads : ReadsTree value) :
    ReadsTrees (defaultValue value) := by
  mvcgen [defaultValue, reads]
  all_goals simp_all

@[spec] theorem typeParameter_reads {attrs : Tree} (formed : attrs.sound = true) :
    ReadsTree (typeParameter g attrs) := by
  mvcgen [typeParameter]
  all_goals simp_all

@[spec] theorem constParameter_reads {attrs : Tree} (formed : attrs.sound = true) :
    ReadsTree (constParameter g attrs) := by
  mvcgen [constParameter]
  all_goals simp_all +zetaDelta

@[spec] theorem parameterWith_reads {attrs : Tree} (formed : attrs.sound = true) :
    ReadsTree (parameterWith g attrs) := by
  mvcgen [parameterWith]
  all_goals simp_all

theorem parameterRule_reads : ReadsTree (parameterRule g) := by
  mvcgen [parameterRule]
  all_goals simp_all

@[spec] theorem generics_reads : ReadsTree (generics g) := by
  mvcgen [generics]
  all_goals simp_all

@[spec] theorem choosesGenerics_reads {skip : Nat} : Peeks (choosesGenerics skip) := by
  mvcgen [choosesGenerics]
  all_goals simp_all

@[spec] theorem predicateEnds_reads : Peeks predicateEnds := by
  mvcgen [predicateEnds]

@[spec] theorem wherePredicate_reads : ReadsTree (wherePredicate g) := by
  mvcgen [wherePredicate]
  all_goals simp_all +zetaDelta

@[spec] theorem whereClause_reads : ReadsTree (whereClause g) := by
  mvcgen [whereClause]
  all_goals simp_all

@[spec] theorem boundsUntil_reads {stop : Parse Bool} (stops : Peeks stop) :
    ReadsTree (boundsUntil g stop) := by
  mvcgen [boundsUntil, stops]
  all_goals simp_all

@[spec] theorem objectBounds_reads {plus capture const : Bool} :
    ReadsTrees (objectBounds g plus capture const) := by
  mvcgen [objectBounds]
  all_goals simp_all

end TestDouble.Grammar
