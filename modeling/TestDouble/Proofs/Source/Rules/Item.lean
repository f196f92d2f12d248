import TestDouble.Proofs.Source.Fluent
import TestDouble.Proofs.Source.Rules.Expr
import TestDouble.Source.Grammar.Item
/-!
# Items and statements are sound
-/

set_option mvcgen.warning false

namespace TestDouble.Grammar
open Parse

attribute [local simp] Round.Keeps Tree.sound_eq Tree.fits Tree.joined Kind.joins Kind.opens Kind.leads plain noAttributes

variable {g : Grammar} [Sound g]

@[spec] theorem visibility_reads : Reads visibility fun tree => tree.sound = true ∧ tree.isStill = true := by
  have inside {p : Parse (List Tree)} (reads : Reads p fun parts => Tree.soundAll parts = true ∧
      Tree.isStillAll parts = true) : Reads (maybe (within .paren p)) fun found =>
        ∀ scope, found = some scope → scope.sound = true ∧ scope.isStill = true := by
    refine maybe_reads ((within_reads_of reads).mono ?_)
    rintro _ ⟨children, rfl, formed, still⟩
    exact ⟨Tree.sound_group.mpr formed, still⟩
  mvcgen [visibility, -maybe_within_reads, inside]
  all_goals simp_all

@[spec] theorem unreadSince_reads {attrs : Tree} {before : List Tree} (formed : attrs.sound = true)
    (kept : Tree.Raw before) : ReadsTree (unreadSince attrs before) := by
  have tokens := Tree.partsAll_tokens formed
  mvcgen [unreadSince]
  all_goals simp_all [Tree.Raw, Tree.flows_tokens_append]

/-! ### Signatures and members -/

@[spec] theorem receiver_reads {attrs : Tree} (formed : attrs.sound = true) :
    ReadsTree (receiver g attrs) := by
  mvcgen [receiver]
  all_goals simp_all +zetaDelta

@[spec] theorem input_reads {attrs : Tree} (formed : attrs.sound = true) : ReadsTree (input g attrs) := by
  have found := maybe_reads (receiver_reads (g := g) formed)
  mvcgen [input, found]
  all_goals simp_all

@[spec] theorem inputs_reads : ReadsTrees (inputs g) := by
  mvcgen [inputs]
  all_goals simp_all

@[spec] theorem seesSignature_reads : Peeks seesSignature := wouldSucceed_reads

@[spec] theorem seesForeignSignature_reads : Peeks seesForeignSignature := wouldSucceed_reads

@[spec] theorem signatureBehind_reads {words : List Tree} (formed : Tree.soundAll words = true)
    (three : words.length = 3) :
    Reads (signatureBehind g words)
      fun tree => tree.sound = true ∧ tree.kind? = some .signature := by
  obtain ⟨constness, asyncness, unsafety, rfl⟩ := List.length_eq_three.mp three
  mvcgen [signatureBehind]
  all_goals simp_all +zetaDelta [Tree.isSignature]

@[spec] theorem signature_reads :
    Reads (signature g) fun tree => tree.sound = true ∧ tree.kind? = some .signature := by
  mvcgen [signature]
  all_goals simp_all

@[spec] theorem bodyOrEnd_reads :
    Reads (bodyOrEnd g)
      fun tree => tree.sound = true ∧ (tree.isPunct ";" = false → tree.isBody = true) := by
  mvcgen [bodyOrEnd, semicolon]
  all_goals simp_all

@[spec] theorem constant_reads : Reads (constant g) fun parts => Tree.soundAll parts.1 = true := by
  mvcgen [constant, semicolon]
  all_goals simp_all +zetaDelta

@[spec] theorem typeDeclaration_reads {before after : Bool} :
    Reads (typeDeclaration g before after)
      fun parts => Tree.soundAll parts.1 = true ∧ Tree.namesAt 1 parts.1 = true := by
  mvcgen [typeDeclaration, semicolon]
  all_goals simp_all +zetaDelta

@[spec] theorem seesInvocation_reads : Peeks seesInvocation := by
  mvcgen [seesInvocation]

@[spec] theorem invocationItem_reads {named : Bool} : ReadsTrees (invocationItem g named) := by
  mvcgen [invocationItem, semicolon]
  all_goals simp_all +zetaDelta

@[spec] theorem traitMember_reads : ReadsTree (traitMember g) := by
  mvcgen [traitMember]
  all_goals simp_all

@[spec] theorem implMember_reads : ReadsTree (implMember g) := by
  mvcgen [implMember]
  all_goals simp_all +zetaDelta

@[spec] theorem foreignSafety_reads : ReadsTree foreignSafety := by
  mvcgen [foreignSafety]
  all_goals simp_all

@[spec] theorem foreignMember_reads : ReadsTree (foreignMember g) := by
  mvcgen [foreignMember, semicolon]
  all_goals simp_all +zetaDelta

@[spec] theorem members_reads {one : Parse Tree} (reads : ReadsTree one) :
    Reads (members g one) fun tree => tree.sound = true ∧ tree.isBody = true := by
  refine body_reads ?_
  mvcgen [reads]
  all_goals simp_all

/-! ### Declarations and imports -/

theorem fieldRule_reads : ReadsTree (fieldRule g) := by
  mvcgen [fieldRule]
  all_goals simp_all +zetaDelta

@[spec] theorem unnamedField_reads : ReadsTree (unnamedField g) := by
  mvcgen [unnamedField]
  all_goals simp_all

@[spec] theorem structBody_reads : ReadsTrees (structBody g) := by
  mvcgen [structBody, semicolon]
  all_goals simp_all

@[spec] theorem variant_reads : ReadsTree (variant g) := by
  mvcgen [variant]
  all_goals simp_all

theorem useTreeRule_reads {rooted : Bool} :
    Reads (useTreeRule g rooted) fun tree => tree.sound = true ∧ tree.opens = true := by
  mvcgen [useTreeRule]
  all_goals simp_all

/-! ### Items -/

@[spec] theorem itemMod_reads {attrs : Tree} (formed : attrs.sound = true) : ReadsTree (itemMod g attrs) := by
  have seen := @peekKeyword_sees "try"
  have taken := @word_seen "try"
  mvcgen [itemMod, semicolon, -peekKeyword_reads, seen, -word_reads, taken]
  all_goals simp_all +zetaDelta [Tree.isModule, Tree.isDeclared]

@[spec] theorem traitHead_reads {attrs : Tree} (formed : attrs.sound = true) :
    Reads (traitHead g attrs) fun head => Tree.soundAll head = true ∧ Tree.namesAt 5 head = true := by
  mvcgen [traitHead]
  all_goals simp_all

@[spec] theorem traitRest_reads {head : List Tree} (formed : Tree.soundAll head = true)
    (named : Tree.namesAt 5 head = true) : ReadsTree (traitRest g head) := by
  mvcgen [traitRest]
  all_goals simp_all

@[spec] theorem itemTrait_reads {attrs : Tree} (formed : attrs.sound = true) :
    ReadsTree (itemTrait g attrs) := by
  mvcgen [itemTrait]
  all_goals simp_all

@[spec] theorem traitOrAlias_reads {attrs : Tree} (formed : attrs.sound = true) :
    ReadsTree (traitOrAlias g attrs) := by
  mvcgen [traitOrAlias, semicolon]
  all_goals simp_all

@[spec] theorem itemImpl_reads {attrs : Tree} (formed : attrs.sound = true) :
    ReadsTree (itemImpl g attrs) := by
  -- Each of the six choices doubles the paths, so what follows a choice is checked once, before its branches.
  refine Reads.bind rest_reads fun trees kept => Reads.bind visibility_reads fun front fronted => ?_
  refine Reads.bind keyword?_reads fun early _ => Reads.bind keyword?_reads fun unsafety _ => ?_
  refine Reads.bind keyword_reads fun word _ => ?_
  extract_lets head withParameters
  suffices later : ∀ parameters, parameters.sound = true → ReadsTree (withParameters parameters) by
    clear_value withParameters
    mvcgen [later]
    all_goals simp_all
  intro parameters _
  refine Reads.bind peekKeyword_reads fun _ _ => ?_
  refine Reads.bind peekOp_reads fun _ _ => Reads.bind seesAt_reads fun _ _ => ?_
  extract_lets isConst withPolarity withConst
  have polar : ∀ polarity, polarity.sound = true → ReadsTree (withPolarity polarity) := by
    intro polarity _
    refine Reads.bind (Sound.type true) fun first _ => Reads.bind keyword?_reads fun forWord _ => ?_
    extract_lets withTarget checked
    have aimed : ∀ target, target.sound = true → ReadsTree (withTarget target) := by
      intro target _
      refine Reads.bind whereClause_reads fun _ _ => Reads.bind (members_reads implMember_reads) fun _ _ => ?_
      refine Reads.ite (unreadSince_reads formed kept) ?_
      mvcgen
      simp_all +zetaDelta
    clear_value withTarget
    refine Reads.ite ?_ (Reads.bind fail_reads fun _ impossible => impossible.elim)
    unfold checked
    mvcgen [aimed]
    all_goals simp_all
  clear_value withPolarity isConst
  mvcgen [polar]
  all_goals simp_all

@[spec] theorem itemStatic_reads {attrs : Tree} (formed : attrs.sound = true) :
    ReadsTree (itemStatic g attrs) := by
  mvcgen [itemStatic, semicolon]
  all_goals simp_all +zetaDelta

@[spec] theorem itemConst_reads {attrs : Tree} (formed : attrs.sound = true) :
    ReadsTree (itemConst g attrs) := by
  mvcgen [itemConst]
  all_goals simp_all

@[spec] theorem itemType_reads {attrs : Tree} (formed : attrs.sound = true) :
    ReadsTree (itemType g attrs) := by
  mvcgen [itemType]
  all_goals simp_all

@[spec] theorem itemUse_reads {attrs : Tree} (formed : attrs.sound = true) :
    ReadsTree (itemUse g attrs) := by
  mvcgen [itemUse, semicolon]
  all_goals simp_all

@[spec] theorem itemForeign_reads {attrs : Tree} (formed : attrs.sound = true) :
    ReadsTree (itemForeign g attrs) := by
  mvcgen [itemForeign]
  all_goals simp_all +zetaDelta

@[spec] theorem itemCrate_reads {attrs : Tree} (formed : attrs.sound = true) :
    ReadsTree (itemCrate attrs) := by
  mvcgen [itemCrate, semicolon]
  all_goals simp_all +zetaDelta

@[spec] theorem itemWith_reads {attrs : Tree} (formed : attrs.sound = true)
    (kind : attrs.kind? = some .attributes) : ReadsTree (itemWith g attrs) := by
  -- The choice among the items plays no part; without its conditions the goals stay small.
  refine Reads.bind rest_reads fun trees before => ?_
  extract_lets front ahead second isPublic keyed follows
  clear_value ahead second keyed follows
  mvcgen
  all_goals simp_all +zetaDelta

theorem itemRule_reads : ReadsTree (itemRule g) := by
  mvcgen [itemRule]
  all_goals simp_all

/-! ### Statements -/

@[spec] theorem seesItem_reads : Peeks seesItem := by
  mvcgen [seesItem]
  all_goals simp_all

@[spec] theorem localStmt_reads {attrs : Tree} (formed : attrs.sound = true) :
    ReadsTree (localStmt g attrs) := by
  mvcgen [localStmt, semicolon]
  all_goals simp_all +zetaDelta

theorem sound_wholeInvocation {tree own body : Tree} (whole : wholeInvocation tree = some (own, body))
    (formed : tree.sound = true) : own.sound = true ∧ body.sound = true := by
  unfold wholeInvocation at whole
  split at whole
  · cases whole
    simpa using formed
  · cases whole

@[spec] theorem exprStmt_reads {attrs : Tree} (formed : attrs.sound = true)
    (kind : attrs.kind? = some .attributes) : ReadsTree (exprStmt g attrs) := by
  refine Reads.bind Sound.early fun first read => ?_
  have kept := Tree.sound_addLeftAttributes (Tree.soundAll_of_attributes formed kind) read
  dsimp only
  generalize first.addLeftAttributes attrs.children = expr at kept
  refine Reads.bind op?_reads fun stop ends => ?_
  split
  · rename_i own body whole
    have parts := sound_wholeInvocation whole kept
    mvcgen
    all_goals simp_all
  · mvcgen
    all_goals simp_all

@[spec] theorem invokedHere_reads : Peeks invokedHere := by
  mvcgen [invokedHere]
  all_goals simp_all

@[spec] theorem statement_reads : ReadsTree (statement g) := by
  mvcgen [statement, semicolon]
  all_goals simp_all

theorem blockRule_reads {inner : Bool} :
    Reads (blockRule g inner) fun tree => tree.sound = true ∧ tree.isBody = true := by
  refine body_reads ?_
  mvcgen
  all_goals simp_all

end TestDouble.Grammar
