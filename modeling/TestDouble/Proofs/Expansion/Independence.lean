import TestDouble.Expansion
import TestDouble.Proofs.Catalog.AlikeResolution
import TestDouble.Proofs.Source.Plain
import TestDouble.Proofs.Specification
import TestDouble.Proofs.Specification.Parts
/-!
# Analyses that do not depend on each other

What is found out about a test depends on the test and on what paths made of names resolve to. Neither the other
tests nor the order of the items has a part in it, as long as no name is declared or imported twice.
-/

namespace TestDouble

variable {catalog other : Catalog}

/-! ### Imports -/

namespace Import

theorem ascend_subset (module : ModulePath) (escaped : Nat) (segments : List String) :
    (ascend module escaped segments).rest ⊆ segments := by
  induction segments generalizing module escaped with
  | nil => exact List.Subset.refl _
  | cons first rest ih =>
      rw [ascend]
      split
      · split
        · exact fun name member => List.mem_cons_of_mem _ (ih _ _ member)
        · exact fun name member => List.mem_cons_of_mem _ (ih _ _ member)
      · exact List.Subset.refl _

theorem ofName_alike (alike : catalog.Alike other) (spelled : catalog.Spelled) (module : ModulePath) {name : String}
    (own : name ≠ "_") : ofName catalog module name = ofName other module name := by
  have named : "_" ∉ [name] := fun member => own (List.mem_singleton.mp member).symm
  rw [ofName, ofName, alike.resolve_eq spelled module named]

theorem ofAscent_alike (alike : catalog.Alike other) (spelled : catalog.Spelled) {ascent : Ascent}
    (named : "_" ∉ ascent.rest) : ofAscent catalog ascent = ofAscent other ascent := by
  unfold ofAscent
  split
  · rfl
  · rename_i name rest left
    have own : name ≠ "_" := by
      rintro rfl
      exact named (left ▸ List.mem_cons_self)
    rw [ofName_alike alike spelled ascent.module own]

/-- A path made of names has the same import for both catalogs. -/
theorem ofPath_alike (alike : catalog.Alike other) (spelled : catalog.Spelled) (module : ModulePath)
    {segments : List String} (named : "_" ∉ segments) :
    ofPath catalog module segments = ofPath other module segments := by
  by_cases own : segments.head? = some "self"
  · cases segments with
    | nil => cases own
    | cons first rest =>
        cases own
        rw [ofPath_self, ofPath_self]
        apply ofAscent_alike alike spelled
        exact fun inside => named (List.mem_cons_of_mem _ (ascend_subset module 0 rest inside))
  · rw [ofPath_other catalog module own, ofPath_other other module own]
    apply ofAscent_alike alike spelled
    exact fun inside => named (ascend_subset module 0 segments inside)

theorem needed_alike (alike : catalog.Alike other) (spelled : catalog.Spelled) (module : ModulePath)
    {signature : Tree} (written : signature.spelled = true) :
    needed catalog module signature = needed other module signature := by
  unfold needed
  apply List.filterMap_congr
  intro path member
  have inside := Tree.spelled_part written (paths_subset _ (List.mem_filter.mp member).1)
  exact ofPath_alike alike spelled module (Tree.names_spelled inside)

theorem movePath_alike (alike : catalog.Alike other) (spelled : catalog.Spelled) (module : ModulePath)
    {children : List Tree} (named : "_" ∉ (Tree.node .path children).names) :
    movePath catalog module children = movePath other module children := by
  have moved : movedSegments catalog module (Tree.node .path children).segments =
      movedSegments other module (Tree.node .path children).segments := by
    have found := ofPath_alike alike spelled module named
    unfold Tree.names at found
    rw [movedSegments, movedSegments, found]
  rw [movePath, movePath, moved]

/-- A tree is rebased alike for both catalogs. -/
theorem rebase_alike (alike : catalog.Alike other) (spelled : catalog.Spelled) (module : ModulePath) {tree : Tree}
    (written : tree.spelled = true) : rebase catalog module tree = rebase other module tree := by
  induction tree using Tree.byChildren with
  | token t => rfl
  | node kind children ih =>
      have below : children.map (rebase catalog module) = children.map (rebase other module) :=
        List.map_congr_left fun child inside => ih child inside (Tree.spelled_child written inside)
      by_cases invocation : kind = .invocation
      · subst invocation
        rfl
      by_cases isPath : kind = .path
      · subst isPath
        have named : "_" ∉ (Tree.node .path (children.map (rebase catalog module))).names := by
          rw [names_rebase_children]
          exact Tree.names_spelled written
        rw [rebase, rebase, rebaseAll_eq_map, rebaseAll_eq_map, movePath_alike alike spelled module named, below]
      · rw [rebase_node catalog module invocation isPath, rebase_node other module invocation isPath, below]

end Import

/-! ### Result types -/

namespace ResultType

theorem ofPath_alike (alike : catalog.Alike other) (spelled : catalog.Spelled) (module : ModulePath) {path : Tree}
    (written : path.spelled = true) {follow follow' : ModulePath → Tree → Except TypeFault Descriptor}
    (below : ∀ module type, type.spelled = true → follow module type = follow' module type) :
    ofPath catalog module path follow = ofPath other module path follow' := by
  have same := alike.resolve_eq spelled module (Tree.names_spelled written)
  simp only [ofPath, ← same]
  cases resolved : catalog.resolve module path.names with
  | none => rfl
  | some target =>
      have inside := spelled.target resolved
      cases target with
      | type place name aliased =>
          cases aliased with
          | none => rfl
          | some type =>
              have led := below place type inside
              simp only [led]
      | trait place item => rfl
      | module path => rfl
      | external place name path => rfl

theorem mapM_congr {α β ε : Type} {left right : α → Except ε β} {list : List α}
    (same : ∀ element ∈ list, left element = right element) : list.mapM left = list.mapM right := by
  induction list with
  | nil => rfl
  | cons first rest ih =>
      rw [List.mapM_cons, List.mapM_cons, same first List.mem_cons_self,
        ih fun element member => same element (List.mem_cons_of_mem _ member)]

theorem resolveWithin_alike (alike : catalog.Alike other) (spelled : catalog.Spelled) (fuel : Nat)
    (module : ModulePath) {type : Tree} (written : type.spelled = true) :
    resolveWithin catalog fuel module type = resolveWithin other fuel module type := by
  induction fuel generalizing module type with
  | zero => rfl
  | succ fuel ih =>
      unfold resolveWithin
      split
      · rename_i group
        have each : ∀ element ∈ group.elements,
            resolveWithin catalog fuel module element = resolveWithin other fuel module element := by
          intro element member
          have inside : group.spelled = true := Tree.spelled_child written List.mem_cons_self
          exact ih module (Tree.spelled_part inside (Tree.elements_subset _ member))
        generalize group.elements = elements at each
        cases elements with
        | nil => rfl
        | cons first rest => exact congrArg (Except.map Descriptor.tuple) (mapM_congr each)
      · rename_i inner
        have inside := Tree.spelled_child written List.mem_cons_self
        exact ih module (Tree.spelled_child inside List.mem_cons_self)
      · rfl
      · rfl
      · exact ofPath_alike alike spelled module (Tree.spelled_child written List.mem_cons_self)
          fun place type inside => ih place inside
      all_goals rfl

theorem ofSignature_alike (alike : catalog.Alike other) (spelled : catalog.Spelled) (module : ModulePath)
    {signature : Tree} (written : signature.spelled = true) :
    ofSignature catalog module signature = ofSignature other module signature := by
  unfold ofSignature
  split
  · rfl
  · rename_i type found
    exact resolveWithin_alike alike spelled maxDepth module (Tree.spelled_part written (Tree.resultType?_mem found))

end ResultType

/-! ### Constants -/

namespace ConstScope

/-- That two scopes of constants hold the same constants, whose values are made of names. -/
structure Alike (scope twin : ConstScope) : Prop where
  same : ∀ name, name ≠ "_" → scope.lookup name = twin.lookup name
  values : ∀ name value, scope.lookup name = some value → value.spelled = true

theorem constantName_spelled {path : Tree} (spelled : path.spelled = true) {name : String}
    (named : constantName path = some name) : name ≠ "_" := by
  have inside := Tree.names_spelled spelled
  unfold constantName at named
  split at named
  · rename_i names
    cases named
    rintro rfl
    exact inside (names ▸ List.mem_cons_self)
  · rename_i names
    cases named
    rintro rfl
    exact inside (names ▸ List.mem_cons_of_mem _ List.mem_cons_self)
  · cases named

theorem evaluateWithin_alike {scope twin : ConstScope} (alike : scope.Alike twin) (fuel : Nat) {expr : Tree}
    (spelled : expr.spelled = true) : scope.evaluateWithin fuel expr = twin.evaluateWithin fuel expr := by
  induction fuel generalizing expr with
  | zero => rfl
  | succ fuel ih =>
      unfold evaluateWithin
      split
      · rfl
      · rfl
      · rename_i inner
        have group := Tree.spelled_child spelled (List.mem_cons_of_mem _ List.mem_cons_self)
        exact ih (Tree.spelled_child group List.mem_cons_self)
      · rw [ih (Tree.spelled_child spelled (by simp))]
      · rw [ih (Tree.spelled_child spelled (by simp))]
      · rw [ih (Tree.spelled_child spelled (by simp))]
      · rename_i path
        have inside : path.spelled = true := Tree.spelled_child spelled (by simp)
        refine Option.bind_congr fun name named => ?_
        rw [← alike.same name (constantName_spelled inside named)]
        exact Option.bind_congr fun value found => ih (alike.values name value found)
      · rfl

theorem spelled_of_last? {name : String} {declarations : List (String × Tree)} {value : Tree}
    (spelled : ∀ entry ∈ declarations, entry.2.spelled = true) (found : last? name declarations = some value) :
    value.spelled = true :=
  spelled (name, value) (List.mem_reverse.mp (Catalog.mem_of_lookup found))

/-- A test sees the same constants in both catalogs. -/
theorem alike_ofBody (alike : catalog.Alike other) (spelled : catalog.Spelled) {body : Tree}
    (written : body.spelled = true) (module : ModulePath) :
    (ofBody body (catalog.constants module)).Alike (ofBody body (other.constants module)) := by
  have own : ∀ entry ∈ declaredAll body.statements, entry.2.spelled = true := by
    intro entry member
    rw [declaredAll_eq_flatMap] at member
    obtain ⟨statement, inside, below⟩ := List.mem_flatMap.mp member
    have within := Tree.subtrees_trans (Tree.statements_subset _ inside) (declared_subset _ (List.mem_map_of_mem below))
    exact Tree.spelled_part written within
  have related := alike.scopes module
  constructor
  · intro name named
    refine congrArg (Option.or _) ?_
    change last? name ((catalog.constants module).filterMap _) = last? name ((other.constants module).filterMap _)
    unfold Catalog.constants
    generalize catalog.scope? module = found at related
    generalize other.scope? module = twin at related
    cases related with
    | none => rfl
    | some same => exact same.constants name named
  · intro name value found
    rcases Option.or_eq_some_iff.mp found with inBody | ⟨_, inModule⟩
    · exact spelled_of_last? own inBody
    · change last? name ((catalog.constants module).filterMap _) = some value at inModule
      unfold Catalog.constants at inModule
      cases scope : catalog.scope? module with
      | none =>
          rw [scope] at inModule
          cases inModule
      | some scope' =>
          rw [scope] at inModule
          exact spelled_of_last? (spelled _ _ scope).constants inModule

end ConstScope

/-! ### Sites -/

/-- That the paths in a site are made of names. -/
def Site.Spelled : Site → Prop
  | .marker call => call.callee.spelled = true
  | .configuration _ value => ∀ argument, value = some argument → argument.spelled = true

namespace Site

theorem ofNode_spelled (settings : Settings) {tree : Tree} (spelled : tree.spelled = true) {site : Site}
    (found : ofNode settings tree = some site) : site.Spelled := by
  unfold ofNode at found
  split at found
  · rename_i call viewed
    split at found
    · cases found
      exact Tree.spelled_part spelled (Tree.callee_mem viewed)
    · cases found
  · split at found
    · rename_i call viewed
      obtain ⟨method, _, rfl⟩ := Option.map_eq_some_iff.mp found
      intro argument first
      have given := Tree.elements_subset _ (List.mem_of_mem_head? first)
      exact Tree.spelled_part spelled (Tree.subtrees_trans (Tree.arguments_mem viewed) given)
    · cases found

theorem ofTree_spelled (settings : Settings) {tree : Tree} (spelled : tree.spelled = true) :
    ∀ site ∈ ofTree settings tree, site.Spelled := by
  induction tree using Tree.byChildren with
  | token t =>
      intro site member
      cases member
  | node kind children ih =>
      intro site member
      rw [ofTree] at member
      split at member
      · cases member
      · rcases List.mem_append.mp member with own | later
        · exact ofNode_spelled settings spelled (Option.mem_toList.mp own)
        · rw [ofTrees_eq_flatMap] at later
          obtain ⟨child, inside, below⟩ := List.mem_flatMap.mp later
          exact ih child inside (Tree.spelled_child spelled inside) site below

end Site

/-- That the paths in all sites are made of names. -/
def Sites.Spelled (sites : Sites) : Prop := ∀ site ∈ sites.found, site.Spelled

namespace Sites

theorem spelled_ofBody (settings : Settings) {body : Tree} (spelled : body.spelled = true) :
    (ofBody settings body).Spelled := by
  intro site member
  change site ∈ Site.ofTrees settings body.statements at member
  rw [Site.ofTrees_eq_flatMap] at member
  obtain ⟨statement, inside, below⟩ := List.mem_flatMap.mp member
  exact Site.ofTree_spelled settings (Tree.spelled_part spelled (Tree.statements_subset _ inside)) site below

theorem Spelled.marker {sites : Sites} (spelled : sites.Spelled) {marker : Call} (member : marker ∈ sites.markers) :
    marker.callee.spelled = true := by
  obtain ⟨site, inside, own⟩ := List.mem_filterMap.mp member
  have written := spelled site inside
  cases site with
  | marker call =>
      cases own
      exact written
  | configuration method value => cases own

theorem Spelled.configured {sites : Sites} (spelled : sites.Spelled) {method : String} {argument : Tree}
    (found : sites.configured? method = some (some argument)) : argument.spelled = true := by
  have member := List.mem_reverse.mp (Catalog.mem_of_lookup found)
  obtain ⟨site, inside, own⟩ := List.mem_filterMap.mp member
  have written := spelled site inside
  cases site with
  | marker call => cases own
  | configuration name value =>
      cases own
      exact written argument rfl

end Sites

/-! ### Specifications -/

namespace Specification

theorem contractOf_alike (alike : catalog.Alike other) (spelled : catalog.Spelled) (module : ModulePath)
    {marker : Call} (written : marker.callee.spelled = true) :
    contractOf catalog module marker = contractOf other module marker := by
  unfold contractOf
  split
  · rfl
  · rename_i path named
    have inside := Tree.names_spelled (Tree.spelled_part written (contractPath_mem named))
    simp only [alike.resolve_eq spelled module inside]

theorem otherMarkerProblem?_alike (alike : catalog.Alike other) (spelled : catalog.Spelled) (test : Test)
    (key : String) (contract : ModulePath × TraitItem) {marker : Call} (written : marker.callee.spelled = true) :
    otherMarkerProblem? catalog test key contract marker = otherMarkerProblem? other test key contract marker := by
  unfold otherMarkerProblem?
  rw [contractOf_alike alike spelled test.module written]

theorem method_alike (alike : catalog.Alike other) (spelled : catalog.Spelled) (module : ModulePath)
    {scope twin : ConstScope} (constants : scope.Alike twin) {sites : Sites} (written : sites.Spelled)
    {signature : Tree} (own : signature.spelled = true) :
    method catalog module scope sites signature = method other module twin sites signature := by
  have configured : ∀ type, configuredConstant scope signature type (sites.configured? signature.signatureName) =
      configuredConstant twin signature type (sites.configured? signature.signatureName) := by
    intro type
    unfold configuredConstant
    split
    · rename_i argument found
      have same := ConstScope.evaluateWithin_alike constants ConstScope.maxSteps (written.configured found)
      rw [ConstScope.evaluate, ConstScope.evaluate, same]
    · rfl
  simp only [method, ResultType.ofSignature_alike alike spelled module own, configured,
    Import.rebase_alike alike spelled module own]

/-- The signatures of a contract that a path resolves to are made of names. -/
theorem spelled_methods {contract : TraitItem} (spelled : ∀ member ∈ contract.members, member.spelled = true) :
    ∀ signature ∈ Contract.methods contract, signature.spelled = true := by
  intro signature own
  obtain ⟨member, inside, found⟩ := List.mem_filterMap.mp own
  exact Tree.spelled_part (spelled member inside) (Tree.methodSignature?_mem found)

theorem importsOf_alike (alike : catalog.Alike other) (spelled : catalog.Spelled) (module : ModulePath)
    {contract : TraitItem} (named : contract.name ≠ "_")
    (methods : ∀ signature ∈ Contract.methods contract, signature.spelled = true) :
    importsOf catalog module contract = importsOf other module contract := by
  have own : "_" ∉ [contract.name] := fun member => named (List.mem_singleton.mp member).symm
  have each : (Contract.methods contract).flatMap (Import.needed catalog module) =
      (Contract.methods contract).flatMap (Import.needed other module) :=
    List.flatMap_congr fun signature member => Import.needed_alike alike spelled module (methods signature member)
  rw [importsOf, importsOf, Import.ofPath_alike alike spelled module own, each]

theorem ofContract_alike (alike : catalog.Alike other) (spelled : catalog.Spelled) {test : Test}
    (body : test.function.body.spelled = true) {sites : Sites} (written : sites.Spelled) (module : ModulePath)
    {contract : TraitItem} (named : contract.name ≠ "_")
    (methods : ∀ signature ∈ Contract.methods contract, signature.spelled = true) :
    ofContract catalog test sites module contract = ofContract other test sites module contract := by
  have constants := ConstScope.alike_ofBody alike spelled body test.module
  have results : (Contract.methods contract).map
        (method catalog module (.ofBody test.function.body (catalog.constants test.module)) sites) =
      (Contract.methods contract).map
        (method other module (.ofBody test.function.body (other.constants test.module)) sites) :=
    List.map_congr_left fun signature member =>
      method_alike alike spelled module constants written (methods signature member)
  simp only [ofContract, results, alike.root, importsOf_alike alike spelled module named methods]

/-- A test is specified alike in catalogs that answer alike. -/
theorem ofTest_alike (alike : catalog.Alike other) (spelled : catalog.Spelled) {test : Test}
    (body : test.function.body.spelled = true) {sites : Sites} (written : sites.Spelled) :
    ofTest catalog test sites = ofTest other test sites := by
  unfold ofTest
  split
  · rfl
  · rename_i marker others markers
    have callees : ∀ call ∈ marker :: others, call.callee.spelled = true := by
      intro call member
      rw [← markers] at member
      exact written.marker member
    rw [← contractOf_alike alike spelled test.module (callees marker List.mem_cons_self), ← alike.root]
    split
    · rfl
    · rename_i module contract found
      have further : ∀ key, others.filterMap (otherMarkerProblem? catalog test key (module, contract)) =
          others.filterMap (otherMarkerProblem? other test key (module, contract)) := by
        intro key
        apply List.filterMap_congr
        intro call member
        exact otherMarkerProblem?_alike alike spelled test key _ (callees call (List.mem_cons_of_mem _ member))
      obtain ⟨path, _, _, resolved⟩ := contractOf_eq_ok found
      obtain ⟨named, members⟩ := spelled.target resolved
      simp only [further, ofContract_alike alike spelled body written module named (spelled_methods members)]

end Specification

/-! ### Rearranged modules -/

theorem Catalog.spelled_of_test {root : String} {items : List Tree} (spelled : ∀ item ∈ items, item.spelled = true)
    {test : Test} (member : test ∈ (Catalog.ofItems root items).tests) : test.function.body.spelled = true := by
  obtain ⟨content, reached, item, inside, found, _⟩ := Catalog.mem_tests.mp member
  exact Tree.spelled_part (reached.spelled spelled item inside) (Tree.body_mem found)

namespace Analysis

/--
The analysis of a test is the same in two modules that differ by the order of the items and by other test
functions only, at any depth: the same sites are found, and the same specification or the same problems in the
same order. Glob imports have to stay in their order, and no name may be declared or imported twice in a module.
-/
theorem ofTest_rearranged (settings : Settings) {module other : Tree} {name : String} {before after : List Tree}
    (inline : module.asModule? = some ⟨name, some before⟩)
    (otherInline : other.asModule? = some ⟨name, some after⟩) (rearranged : Rearranged before after)
    (formed : module.wellFormed = true) (spelled : module.spelled = true) {catalog others : Catalog}
    (collected : Catalog.ofModule module = .ok catalog) (otherCollected : Catalog.ofModule other = .ok others)
    (once : catalog.Once) {test : Test} (member : test ∈ catalog.tests) :
    ofTest settings catalog test = ofTest settings others test := by
  have first : catalog = .ofItems name before := by
    rw [Catalog.ofModule, inline] at collected
    exact (Except.ok.inj collected).symm
  have second : others = .ofItems name after := by
    rw [Catalog.ofModule, otherInline] at otherCollected
    exact (Except.ok.inj otherCollected).symm
  subst first second
  have content : ∀ item ∈ before, item.spelled = true :=
    fun _ inside => Tree.spelled_part spelled (Tree.content_subset inline inside)
  have alike := Catalog.alike_ofItems name rearranged once
  have named := @Catalog.spelled_ofItems name before (Tree.wellFormed_content inline formed) content
  have body := Catalog.spelled_of_test content member
  have sites := Sites.spelled_ofBody settings body
  rw [ofTest, ofTest, Specification.ofTest_alike alike named body sites]

/-- A trait with types of an inner module, and a test that configures a double of it. -/
def sourceTrait : Tree :=
  Tree.plainTrait "Source" [Tree.takingMethod "put" (Tree.namedType ["model", "Payload"]),
    Tree.returningMethod "size" (Tree.namedType ["model", "Size"])]

def sendingTest : Tree :=
  Tree.testFunction "sends"
    [Tree.creation "Ghost" ["Source"], Tree.configuration "source" "size" (Tree.literalExpr "3")]

def payload : Tree := Tree.aliasItem "Payload" (Tree.namedType ["u8"])

def size : Tree := Tree.aliasItem "Size" (Tree.namedType ["u16"])

def sentItems : List Tree :=
  [Tree.inlineModule "model" [payload, size], sourceTrait, sendingTest,
    Tree.testFunction "waits" [Tree.creation "Ghost" ["Source"]]]

/-- The same items in another order, without the second test. -/
def movedItems : List Tree := [sourceTrait, Tree.inlineModule "model" [size, payload], sendingTest]

theorem sent_moved : Rearranged sentItems movedItems := by
  have inner := Rearranged.swap payload size [] (.inl rfl)
  have outer := Rearranged.within Tree.noAttributes Tree.absent Tree.absent (Tree.ident "mod") "model" Tree.noAttributes
  exact .trans (outer _ inner) (.trans (.swap _ _ _ (.inl rfl)) (.keep _ (.keep _ (.keep _ (.remove rfl [])))))

theorem ofTest_rearranged_moved :
    ∃ test ∈ (Catalog.ofItems "samples" movedItems).tests, ∃ specification,
      ofTest {} (.ofItems "samples" sentItems) test = ofTest {} (.ofItems "samples" movedItems) test ∧
      (ofTest {} (.ofItems "samples" movedItems) test).outcome = .ok (some specification) := by
  have formed : (Tree.inlineModule "samples" sentItems).wellFormed = true := by decide
  have spelled : (Tree.inlineModule "samples" sentItems).spelled = true := by decide
  have once : (Catalog.ofItems "samples" sentItems).Once := by decide
  have same := ofTest_rearranged {} rfl (Eq.refl (Tree.inlineModule "samples" movedItems).asModule?) sent_moved formed
    spelled rfl rfl once (List.mem_cons_self)
  exact ⟨_, .head _, _, same, rfl⟩

end Analysis

end TestDouble
