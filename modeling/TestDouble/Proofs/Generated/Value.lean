import TestDouble.Generated.Unit
import TestDouble.Proofs.Source.Plain
import TestDouble.Proofs.Specification
/-!
# The value in the body of a method

A specification is only made if every constant that a test configures fits the result of its method. So
the generated body holds exactly this constant, and the default of the type only where nothing, or nothing
that is a constant, was configured. A method without result holds neither.
-/

namespace TestDouble

namespace Descriptor

theorem defaultValue?_isSome {type : Descriptor} (valued : type.isNoValue = false) :
    ∃ tokens, type.defaultValue? = some tokens := by
  cases type with
  | noValue => cases valued
  | str owned => cases owned <;> exact ⟨_, rfl⟩
  | _ => exact ⟨_, rfl⟩

theorem valued_of_constant? {type : Descriptor} {value : Constant} {tokens : List Tree}
    (fits : type.constant? value = some tokens) : type.isNoValue = false := by
  cases type with
  | noValue => cases fits
  | _ => rfl

end Descriptor

namespace Tree

def returned? : Tree → Option Tree
  | .node .returns [_, type] => some type
  | _ => none

theorem resultType?_eq (signature : Tree) :
    signature.resultType? = signature.asSignature?.bind fun view => returned? view.output := by
  unfold resultType?
  cases signature.asSignature? with
  | none => rfl
  | some view =>
      obtain ⟨constness, asyncness, unsafety, name, generics, inputs, output⟩ := view
      show _ = returned? output
      unfold returned?
      split <;> simp_all

theorem returned?_other {tree : Tree} (other : tree.kind? ≠ some .returns) : tree.returned? = none := by
  unfold returned?
  split
  · exact absurd rfl other
  · rfl

theorem asSignature?_other {tree : Tree} (other : tree.kind? ≠ some .signature) : tree.asSignature? = none := by
  unfold asSignature?
  split
  · exact absurd rfl other
  · rfl

end Tree

namespace Import

variable (catalog : Catalog) (module : ModulePath)

theorem returned?_rebase (tree : Tree) :
    (rebase catalog module tree).returned? = tree.returned?.map (rebase catalog module) := by
  by_cases arrow : tree.kind? = some .returns
  · cases tree with
    | token t => cases arrow
    | node kind children =>
        cases arrow
        rw [rebase_node catalog module (by decide) (by decide)]
        rcases children with _ | ⟨mark, _ | ⟨type, _ | ⟨further, rest⟩⟩⟩ <;> rfl
  · have other : (rebase catalog module tree).kind? ≠ some .returns := by
      rw [kind?_rebase]
      exact arrow
    rw [Tree.returned?_other arrow, Tree.returned?_other other]
    rfl

theorem asSignature?_rebase (tree : Tree) :
    (rebase catalog module tree).asSignature? = tree.asSignature?.map fun view =>
      { constness := rebase catalog module view.constness
        asyncness := rebase catalog module view.asyncness
        unsafety := rebase catalog module view.unsafety
        name := view.name
        generics := rebase catalog module view.generics
        inputs := rebase catalog module view.inputs
        output := rebase catalog module view.output } := by
  by_cases signature : tree.kind? = some .signature
  · cases tree with
    | token t => cases signature
    | node kind children =>
        cases signature
        rw [rebase_node catalog module (by decide) (by decide)]
        -- only a node of ten parts, with a word as the sixth, is a signature
        rcases children with _ | ⟨_, _ | ⟨_, _ | ⟨_, _ | ⟨_, _ | ⟨_, _ | ⟨name, rest⟩⟩⟩⟩⟩⟩
        case cons.cons.cons.cons.cons.cons =>
          cases name with
          | node kind inside =>
              obtain ⟨other, below, same⟩ := rebase_isNode catalog module kind inside
              simp only [List.map_cons, same]
              rcases rest with _ | ⟨_, _ | ⟨_, _ | ⟨_, _ | ⟨_, _ | ⟨_, _⟩⟩⟩⟩⟩ <;> rfl
          | token t =>
              rcases rest with _ | ⟨_, _ | ⟨_, _ | ⟨_, _ | ⟨_, _ | ⟨_, _⟩⟩⟩⟩⟩ <;> cases t <;> rfl
        all_goals rfl
  · have other : (rebase catalog module tree).kind? ≠ some .signature := by
      rw [kind?_rebase]
      exact signature
    rw [Tree.asSignature?_other signature, Tree.asSignature?_other other]
    rfl

theorem resultType?_rebase (signature : Tree) :
    (rebase catalog module signature).resultType? = signature.resultType?.map (rebase catalog module) := by
  rw [Tree.resultType?_eq, Tree.resultType?_eq, asSignature?_rebase, Option.bind_map, Option.map_bind]
  congr 1
  funext view
  exact returned?_rebase catalog module view.output

end Import

namespace Specification

section

variable {scope : ConstScope} {signature : Tree} {type : Descriptor} {recorded : Option (Option Tree)}
  {configured : Option Constant}

theorem fits_of_configured (checked : configuredConstant scope signature type recorded = .ok configured)
    {value : Constant} (kept : configured = some value) : ∃ tokens, type.constant? value = some tokens :=
  Option.isSome_iff_exists.mp ((configuredConstant_eq_ok_iff.mp checked).2 value kept)

/-- A configured constant is kept as it is, and it fits. -/
theorem configured_of_constant (checked : configuredConstant scope signature type recorded = .ok configured)
    {argument : Tree} {value : Constant} (given : recorded = some (some argument))
    (constant : scope.evaluate argument = some value) :
    configured = some value ∧ ∃ tokens, type.constant? value = some tokens := by
  obtain ⟨same, _⟩ := configuredConstant_eq_ok_iff.mp checked
  rw [given, Option.join_some, Option.bind_some, constant] at same
  exact ⟨same, fits_of_configured checked same⟩

theorem configured_of_none (checked : configuredConstant scope signature type recorded = .ok configured)
    (unknown : ∀ argument, recorded = some (some argument) → scope.evaluate argument = none) :
    configured = none := by
  obtain ⟨same, _⟩ := configuredConstant_eq_ok_iff.mp checked
  rw [same, Option.bind_eq_none_iff]
  exact fun argument own => unknown argument (Option.join_eq_some_iff.mp own)

theorem typed_of_valued {catalog : Catalog} {place : ModulePath}
    (resolved : ResultType.ofSignature catalog place signature = .ok type) (valued : type.isNoValue = false) :
    ∃ result, signature.resultType? = some result := by
  unfold ResultType.ofSignature at resolved
  cases written : signature.resultType? with
  | some result => exact ⟨result, rfl⟩
  | none =>
      rw [written] at resolved
      cases resolved
      cases valued

end

end Specification

namespace MethodSpecification

/--
How the body of a method ends, after the call was observed: with nothing, with a value, or with a lookup
among the values configured at run time that falls back on the value. The last two are for results that
borrow, and for all others.
-/
inductive EndsWith (method : MethodSpecification) : Option (List Tree) → Prop where
  | nothing (written : method.item = code "#[allow(unused_variables)]" ++
      [method.signature, .group .brace method.observation]) : EndsWith method none
  | borrowed {value : List Tree} (borrows : ResultType.isBorrowed method.signature = true)
      (written : method.item = code "#[allow(unused_variables)]" ++
        [method.signature, .group .brace (method.observation ++ value)]) : EndsWith method (some value)
  | owned {value : List Tree} {type : Tree} (owns : ResultType.isBorrowed method.signature = false)
      (typed : method.signature.resultType? = some type)
      (written : method.item = code "#[allow(unused_variables)]" ++
        [method.signature, .group .brace (method.observation ++ (code "self.core.returned::" ++
          [Tree.punct "<", type, Tree.punct ">",
            .group .paren (method.nameLiteral :: code ", ||" ++ value)]))]) : EndsWith method (some value)

theorem endsWith_nothing {method : MethodSpecification} (valueless : method.type.isNoValue = true) :
    method.EndsWith none := by
  have none : method.result = [] := by
    unfold result
    cases method.signature.resultType? with
    | none => rfl
    | some type =>
        dsimp only
        rw [if_pos valueless]
  refine .nothing ?_
  unfold item
  rw [none, List.append_nil]

theorem endsWith_baked {method : MethodSpecification} (valued : method.type.isNoValue = false) {type : Tree}
    (typed : method.signature.resultType? = some type) {value : List Tree} (baked : method.baked? = some value) :
    method.EndsWith (some value) := by
  have result : method.result =
      if ResultType.isBorrowed method.signature then value
      else code "self.core.returned::" ++ [Tree.punct "<", type, Tree.punct ">",
        .group .paren (method.nameLiteral :: code ", ||" ++ value)] := by
    unfold result
    rw [typed]
    dsimp only
    rw [valued, baked]
    rfl
  cases borrows : ResultType.isBorrowed method.signature with
  | true =>
      refine .borrowed borrows ?_
      unfold item
      rw [result, if_pos borrows]
  | false =>
      refine .owned borrows typed ?_
      unfold item
      rw [result, borrows]
      rfl

end MethodSpecification

namespace Specification

/--
Which value stands in the body of a method, for every test that has a specification and every method of it.
If the argument of the last configuration of the method is a constant, it has an expression as a value of
the result type, and the body ends with this expression. If there is no configuration, or the last one has
no argument or one that is no constant, the body ends with the default of the result type. A method without
result is never configured, and its body ends with nothing.
-/
theorem body_endsWith {settings : Settings} {catalog : Catalog} {test : Test} {specification : Specification}
    (made : ofTest catalog test (Sites.ofBody settings test.function.body) = .ok (some specification))
    {method : MethodSpecification} (member : method ∈ specification.methods) :
    let recorded := (Sites.ofBody settings test.function.body).configured? method.name
    let scope := ConstScope.ofBody test.function.body (catalog.constants test.module)
    (∀ argument value, recorded = some (some argument) → scope.evaluate argument = some value →
        ∃ tokens, method.type.constant? value = some tokens ∧ method.EndsWith (some tokens)) ∧
      (method.type.isNoValue = false →
        (∀ argument, recorded = some (some argument) → scope.evaluate argument = none) →
        ∃ tokens, method.type.defaultValue? = some tokens ∧ method.EndsWith (some tokens)) ∧
      (method.type.isNoValue = true → method.configured = none ∧ method.EndsWith none) := by
  intro recorded scope
  obtain ⟨place, contract, built⟩ := ofContract_of_ofTest made
  obtain ⟨signature, _, own⟩ := ofContract_builds built method member
  obtain ⟨_, rebased, resolved, checked⟩ := method_eq_ok own
  -- a method with a value has a type written behind its arrow, in the unit as in the contract
  have typed : method.type.isNoValue = false → ∃ type, method.signature.resultType? = some type := by
    intro valued
    obtain ⟨type, written⟩ := typed_of_valued resolved valued
    refine ⟨Import.rebase catalog place type, ?_⟩
    rw [rebased, Import.resultType?_rebase, written, Option.map_some]
  refine ⟨?_, ?_, ?_⟩
  · intro argument value given constant
    obtain ⟨kept, tokens, fits⟩ := configured_of_constant checked given constant
    have valued := Descriptor.valued_of_constant? fits
    obtain ⟨type, written⟩ := typed valued
    refine ⟨tokens, fits, MethodSpecification.endsWith_baked valued written ?_⟩
    rw [MethodSpecification.baked?, kept, Option.bind_some, fits, Option.some_or]
  · intro valued unknown
    have unset := configured_of_none checked unknown
    obtain ⟨tokens, default⟩ := Descriptor.defaultValue?_isSome valued
    obtain ⟨type, written⟩ := typed valued
    refine ⟨tokens, default, MethodSpecification.endsWith_baked valued written ?_⟩
    rw [MethodSpecification.baked?, unset, Option.bind_none, Option.none_or, default]
  · intro valueless
    refine ⟨?_, MethodSpecification.endsWith_nothing valueless⟩
    cases kept : method.configured with
    | none => rfl
    | some value =>
        obtain ⟨tokens, fits⟩ := fits_of_configured checked kept
        rw [Descriptor.valued_of_constant? fits] at valueless
        cases valueless

/-- A contract with two methods, and a test that configures the first of them. -/
def gaugeItems : List Tree :=
  [Tree.plainTrait "Gauge"
      [Tree.returningMethod "size" (Tree.namedType ["i32"]), Tree.returningMethod "title" (Tree.namedType ["String"])],
    Tree.testFunction "reads"
      [Tree.creation "Ghost" ["Gauge"], Tree.configuration "gauge" "size" (Tree.literalExpr "15")]]

theorem body_endsWith_gauge :
    ∃ test ∈ (Catalog.ofItems "samples" gaugeItems).tests, ∃ specification,
      ofTest (.ofItems "samples" gaugeItems) test (Sites.ofBody {} test.function.body) = .ok (some specification) ∧
      ∃ size title, specification.methods = [size, title] ∧ size.EndsWith (some [Descriptor.literal "15"]) ∧
        title.EndsWith (some Descriptor.newString) := by
  obtain ⟨test, member, specification, made, size, title, methods, sized, given, titled, plain⟩ :
      ∃ test ∈ (Catalog.ofItems "samples" gaugeItems).tests, ∃ specification,
        ofTest (.ofItems "samples" gaugeItems) test (Sites.ofBody {} test.function.body) = .ok (some specification) ∧
        ∃ size title, specification.methods = [size, title] ∧ size.type = .int .i32 ∧
          (Sites.ofBody {} test.function.body).configured? size.name = some (some (Tree.literalExpr "15")) ∧
          title.type = .str true ∧ (Sites.ofBody {} test.function.body).configured? title.name = none :=
    ⟨_, .head _, _, rfl, _, _, rfl, rfl, rfl, rfl, rfl⟩
  refine ⟨test, member, specification, made, size, title, methods, ?_, ?_⟩
  · have first : size ∈ specification.methods := by rw [methods]; exact .head _
    obtain ⟨constant, _, _⟩ := body_endsWith made first
    obtain ⟨tokens, fits, ends⟩ := constant (Tree.literalExpr "15") (.int 15) given rfl
    rw [sized] at fits
    cases fits
    exact ends
  · have second : title ∈ specification.methods := by rw [methods]; exact .tail _ (.head _)
    obtain ⟨_, unset, _⟩ := body_endsWith made second
    obtain ⟨tokens, default, ends⟩ := unset (by rw [titled]; rfl) (by rw [plain]; exact nofun)
    rw [titled] at default
    cases default
    exact ends

end Specification

end TestDouble
