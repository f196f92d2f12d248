import TestDouble.Proofs.Expansion.Registration
import TestDouble.Proofs.Expansion.Strays
import TestDouble.Proofs.Import.Surface
import TestDouble.Proofs.Site.Holding
import TestDouble.Proofs.Site.Inert
/-!
# Creation sites and the registry

What a creation site of a test becomes, what the dispatcher registers and what the unit of the test
implements are computed apart from each other, over the same tree. They agree: the call that takes the place
of a creation site finds the type generated for its test, and this type implements the trait that the
creation site names.
-/

namespace TestDouble

/-! ### The call of a bound creation site -/

/--
That a call asks the dispatcher for the double of a key, from a module so many levels below the annotated
one: the path leads there, through the dispatcher and ends with the given segment, and the key is the only
argument.
-/
structure Call.Asks (settings : Settings) (depth : Nat) (key : String) (last : Tree) (call : Call) : Prop where
  callee : ∃ children, call.callee = .node .pathExpr [.node .attributes [], .node .path children] ∧
    (Tree.node .path children).isRootPath = false ∧
    (Tree.node .path children).segments =
      (Name.toRoot depth ++ [Name.aggregate, settings.dispatcher]).map
        (fun name => .node .segment [Tree.ident name]) ++ [last]
  argument : call.arguments =
    .group .paren [.node .literal [.node .attributes [], .token (.literal (Text.stringLiteral key))]]

namespace Binder

variable {binder : Binder}

theorem boundCall_asks (place : Place) (key : String) (attributes : Tree) {last : Tree}
    (segment : last.kind? = some .segment) :
    ∃ call : Call, binder.boundCall place key attributes last = call.toTree ∧
      call.Asks binder.settings place.module.length key last := by
  refine ⟨⟨attributes, binder.callee place last, _⟩, rfl, ⟨_, rfl, rfl, ?_⟩, rfl⟩
  have names : ((Name.toRoot place.module.length ++ [Name.aggregate, binder.settings.dispatcher]).map
      (fun name => Tree.node .segment [Tree.ident name])).filter (fun part => part.kind? == some .segment) =
      (Name.toRoot place.module.length ++ [Name.aggregate, binder.settings.dispatcher]).map
        (fun name => Tree.node .segment [Tree.ident name]) := by
    rw [List.filter_eq_self]
    intro part member
    obtain ⟨name, _, rfl⟩ := List.mem_map.mp member
    rfl
  rw [Tree.segments, List.filter_cons_of_neg (by decide), List.filter_intersperse rfl, List.filter_append, names]
  simp [segment]

/-- What a creation site of a test becomes when its last segment is left alone. -/
theorem bound_asks {place : Place} {key : String} (around : place.function = some (key, true))
    (keyed : key ∈ binder.keys) {call : Call} (marks : binder.settings.isMarker call = true)
    (inert : ∀ last, call.last? = some last → last.Inert) :
    ∃ last bound, call.last? = some last ∧ Call.Asks binder.settings place.module.length key last bound ∧
      (binder.bind place call.toTree).1 = bound.toTree := by
  obtain ⟨attributes, callee, arguments⟩ := call
  obtain ⟨own, children, first, last, rfl, segments, _, _⟩ := Settings.isMarker_callee marks
  have ends : (Tree.node .path children).segments.getLast? = some last := by
    rw [segments]
    rfl
  have segment : last.kind? = some .segment := by
    simpa using (List.mem_filter.mp (List.mem_of_getLast? ends)).2
  obtain ⟨bound, same, asks⟩ :=
    boundCall_asks place key (binder.bind place attributes).1 segment
  refine ⟨last, bound, ends, asks, ?_⟩
  rw [Call.toTree, bind_bound around keyed marks ends, bind_inert (inert last ends) place]
  exact same

end Binder

/-! ### The contract of a specification -/

namespace Specification
open Catalog

/--
That the type of a specification implements a trait that a module declares: its unit implements the trait
under its name, and imports this name from that module.
-/
structure Serves (catalog : Catalog) (specification : Specification) (place : ModulePath)
    (contract : TraitItem) : Prop where
  named : specification.contract = contract.name
  imported : Import.fromRoot 0 place contract.name ∈ specification.imports
  declared : catalog.resolve place [contract.name] = some (.trait place contract)

variable {catalog : Catalog} {test : Test} {sites : Sites} {specification : Specification} {place : ModulePath}
  {contract : TraitItem}

theorem Extracted.declares (named : catalog.Named)
    (extracted : Extracted catalog test sites specification place contract) :
    catalog.Declares place contract.name (.trait place contract) := by
  obtain ⟨marker, _, contracted⟩ := extracted.first
  obtain ⟨path, _, _, resolved⟩ := contractOf_eq_ok contracted
  exact declares_of_resolve named resolved

theorem Extracted.serves (named : catalog.Named)
    (extracted : Extracted catalog test sites specification place contract) :
    Serves catalog specification place contract := by
  have declares := extracted.declares named
  have resolved := declares.resolve named
  refine ⟨extracted.named, ?_, resolved⟩
  rw [extracted.imports, mem_importsOf extracted.accepted]
  refine ⟨_, .own, ?_⟩
  rw [Import.ofPath_ordinary catalog place (declares.plain named)]
  exact Import.ofName_declared resolved rfl

/-- All creation sites of a test name the very trait that its specification was made from. -/
theorem Extracted.contractOf (named : catalog.Named)
    (extracted : Extracted catalog test sites specification place contract) {call : Call}
    (member : call ∈ sites.markers) :
    Specification.contractOf catalog test.module call = .ok (place, contract) := by
  obtain ⟨other, contracted, same⟩ := extracted.every call member
  obtain ⟨path, _, _, resolved⟩ := contractOf_eq_ok contracted
  have own := (extracted.declares named).resolve named
  have others := (declares_of_resolve named resolved).resolve named
  rw [same, own] at others
  cases others
  exact contracted

end Specification

namespace Expansion

variable {settings : Settings} {module : Tree} {root : String} {items : List Tree}

theorem emit_content (settings : Settings) (inline : module.asModule? = some ⟨root, some items⟩)
    (specifications : List Specification) (keys : List String) :
    ∃ attributes visibility unsafety word inner,
      module = .node .itemMod [attributes, visibility, unsafety, word, Tree.ident root,
        .group .brace (inner :: items)] ∧
      emit settings specifications (bindSites settings keys module).1 =
        .node .itemMod [attributes, visibility, unsafety, word, Tree.ident root, .group .brace
          (inner :: (Dispatcher.ofSpecifications settings.dispatcher specifications).importItem ::
            (items.map (fun item => (Binder.bind ⟨settings, root, keys⟩ ⟨[], none⟩ item).1) ++
              (specifications.map Specification.unit ++
                [(Dispatcher.ofSpecifications settings.dispatcher specifications).unit])))] := by
  obtain ⟨attributes, visibility, unsafety, word, inner, rfl⟩ := Tree.inline_module_shape inline
  refine ⟨attributes, visibility, unsafety, word, inner, rfl, ?_⟩
  have bound : ((Binder.bindAll ⟨settings, root, keys⟩ ⟨[], none⟩ items).map (·.1)) =
      items.map (fun item => (Binder.bind ⟨settings, root, keys⟩ ⟨[], none⟩ item).1) := by
    rw [Binder.bindAll_eq_map, List.map_map]
    rfl
  rw [← bound, ← List.append_assoc]
  rfl

/-- What binding makes of a part stands in the expanded module behind the import of the dispatcher. -/
theorem holds_emit (inline : module.asModule? = some ⟨root, some items⟩) (specifications : List Specification)
    {keys : List String} {first : Nat} {more : Position} {inner : Place} {found : Tree}
    (comes : Binder.Comes ⟨settings, root, keys⟩ ⟨[], none⟩ items (first :: more) inner found)
    (apart : module.leadsThrough settings.entersMarker (Position.inContent (first :: more)) = false) :
    HoldsAt (emit settings specifications (bindSites settings keys module).1) (5 :: (first + 2) :: more)
      (Binder.bind ⟨settings, root, keys⟩ inner found).1 := by
  obtain ⟨_, _, item, same, itemAt, visited⟩ := comes
  cases same
  obtain ⟨attributes, visibility, unsafety, word, opening, rfl, emitted⟩ :=
    emit_content settings inline specifications keys
  have content := (Tree.leadsThrough_child apart).2 _ rfl
  have below := visited.holds ((Tree.leadsThrough_child content).2 item itemAt)
  rw [emitted]
  refine .child rfl (.child ?_ below)
  have bound : (items.map (fun item => (Binder.bind ⟨settings, root, keys⟩ ⟨[], none⟩ item).1))[first]? =
      some (Binder.bind ⟨settings, root, keys⟩ ⟨[], none⟩ item).1 := by
    rw [List.getElem?_map, itemAt]
    rfl
  rw [List.getElem?_cons_succ, List.getElem?_cons_succ,
    List.getElem?_append_left (List.getElem?_eq_some_iff.mp bound).1]
  exact bound

theorem asks_of_located (formed : module.wellFormed = true) (inline : module.asModule? = some ⟨root, some items⟩)
    {keys : List String} (specifications : List Specification) {test : Test}
    (member : test ∈ (Catalog.ofItems root items).tests) (keyed : test.key root ∈ keys) {first : Nat}
    {more : Position} {call : Call} (located : Located settings module items test (first :: more) call)
    (kept : module.leadsThrough settings.entersConfiguration (Position.inContent (first :: more)) = false)
    (apart : module.leadsThrough settings.entersMarker (Position.inContent (first :: more)) = false)
    {place : ModulePath} {contract : TraitItem}
    (found : Specification.contractOf (Catalog.ofItems root items) test.module call = .ok (place, contract)) :
    ∃ last bound, call.last? = some last ∧ Call.Asks settings test.module.length (test.key root) last bound ∧
      HoldsAt (emit settings specifications (bindSites settings keys module).1) (5 :: (first + 2) :: more)
        bound.toTree := by
  have comes := @Binder.comes_of_located ⟨settings, root, keys⟩ _ _ _ inline _ _ _ located kept apart
  have held := holds_emit inline specifications comes apart
  obtain ⟨_, _, _, _, _, tested⟩ := Catalog.mem_tests.mp member
  rw [tested] at held
  have callFormed := Tree.wellFormed_at? formed located.found
  obtain ⟨last, bound, ends, asks, same⟩ :=
    @Binder.bound_asks ⟨settings, root, keys⟩ ⟨test.module, some (test.key root, true)⟩ _ rfl keyed _ located.marks
      fun last ends => Specification.inert_of_contractOf callFormed found ends
  exact ⟨last, bound, ends, asks, same ▸ held⟩

/-- That the types generated for some specifications implement what their units import as the contract. -/
def Faithful (fullName : ModulePath → String → String) (specifications : List Specification)
    (type : Registration → Run.Factory) : Prop :=
  ∀ specification ∈ specifications, ∀ place,
    Import.fromRoot 0 place specification.contract ∈ specification.imports →
      (type specification.registration).contract = fullName place specification.contract

/--
That a creation site of a test, the dispatcher and a specification agree. `output` is the expanded module,
and the creation site stood at the given position of the annotated one.
-/
structure Agrees (settings : Settings) (catalog : Catalog) (specifications : List Specification) (output : Tree)
    (test : Test) (first : Nat) (more : Position) (call : Call) (specification : Specification) : Prop where
  /-- In its place stands a call that asks for the double of the test, with the segment `of::<..>` it had. -/
  placed : ∃ last bound, call.last? = some last ∧
    Call.Asks settings test.module.length (test.key catalog.root) last bound ∧
    HoldsAt output (5 :: (first + 2) :: more) bound.toTree
  /-- The key is registered once, with the type of this specification. -/
  registered : (Dispatcher.ofSpecifications settings.dispatcher specifications).registrations.filter
    (fun entry => decide (entry.key = test.key catalog.root)) = [specification.registration]
  /-- The specification is that of the test, and no other one has a unit of this name. -/
  own : Specification.ofTest catalog test (sites settings test) = .ok (some specification) ∧
    ∀ other ∈ specifications, other.unitName = specification.unitName → other = specification
  /-- The units of the specification and of the dispatcher are items of the expanded module. -/
  emitted : ∃ content, output.asModule? = some ⟨catalog.root, some content⟩ ∧
    specification.unit ∈ content ∧ (Dispatcher.ofSpecifications settings.dispatcher specifications).unit ∈ content
  /-- What the creation site names resolves to the trait that the type implements. -/
  contract : ∃ path place contract, Specification.contractPath call = .ok path ∧
    catalog.resolve test.module path.names = some (.trait place contract) ∧
    Specification.Serves catalog specification place contract ∧
    -- at run time the type is found under the key, and is one of the trait
    ∀ fullName type, Faithful fullName specifications type →
      (Run.Registry.ofRegistrations type
        (Dispatcher.ofSpecifications settings.dispatcher specifications).registrations).factory
          (test.key catalog.root) (fullName place contract.name) = .ok (type specification.registration)

def innerItems : List Tree :=
  [Tree.plainTrait "I" [],
    Tree.inlineModule "inner" [Tree.testFunction "t" [Tree.creation "Ghost" ["super", "I"]]]]

/-- A creation site of which the first segment has a block with another creation site as an argument. -/
def carryingCreation : Tree :=
  let block := Tree.node .block [Tree.noAttributes, Tree.absent,
    Tree.body [Tree.creation "Ghost" ["I"],
      .node .exprStmt [.node .literal [Tree.noAttributes, .token (.literal "1")], Tree.absent]]]
  let list (argument : Tree) := Tree.node .genericArguments
    [Tree.punct "::", Tree.punct "<", argument, Tree.punct ">"]
  let bound := Tree.node .traitBound [Tree.absent, Tree.absent, Tree.plainPath ["I"]]
  let path := Tree.node .path
    [Tree.absent, .node .segment [Tree.ident "Ghost", list block], Tree.punct "::",
      .node .segment [Tree.ident "of", list (.node .typeObject [Tree.ident "dyn", bound])]]
  .node .exprStmt [.node .call [Tree.noAttributes, .node .pathExpr [Tree.noAttributes, path], .group .paren []],
    Tree.punct ";"]

def carryingItems : List Tree := [Tree.plainTrait "I" [], Tree.testFunction "t" [carryingCreation]]

end Expansion

end TestDouble
