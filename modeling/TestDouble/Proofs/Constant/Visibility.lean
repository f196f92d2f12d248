import TestDouble.Proofs.Constant.Form
import TestDouble.Proofs.Generated.Value
import TestDouble.Proofs.Site.Walk
import TestDouble.Proofs.Source.Children
/-!
# Blocks and the constants in them

All constants of a body are collected into one scope, wherever their blocks stand. So a name stands for the
constant that is declared last in the source. This is the one that is visible where the name is written only if
no other block declares the name behind it.
-/

namespace TestDouble

namespace Kind

/-- What is searched for constants. -/
def isSearched : Kind → Bool
  | .itemFn | .unread | .arguments => false
  | _ => true

/-- What is searched, except for the items with a scope of their own. -/
def isOpen : Kind → Bool
  | .itemMod | .itemTrait | .itemImpl => false
  | kind => kind.isSearched

theorem isSearched_of_isOpen {kind : Kind} (entered : kind.isOpen = true) : kind.isSearched = true := by
  unfold Kind.isOpen at entered
  split at entered
  · cases entered
  · cases entered
  · cases entered
  · exact entered

end Kind

/-- A way down from some trees to a part of them, inside of what may be entered. -/
inductive Leads (enters : Kind → Bool) : List Tree → Position → Tree → Prop where
  | here {trees : List Tree} {index : Nat} {tree : Tree} (member : trees[index]? = some tree) :
      Leads enters trees [index] tree
  | inside {trees children : List Tree} {kind : Kind} {index : Nat} {position : Position} {tree : Tree}
      (member : trees[index]? = some (.node kind children)) (entered : enters kind = true)
      (below : Leads enters children position tree) : Leads enters trees (index :: position) tree

/-- That a constant of some name is declared at a position. -/
def Declares (enters : Kind → Bool) (name : String) (trees : List Tree) (position : Position) (value : Tree) : Prop :=
  ∃ tree, Leads enters trees position tree ∧ tree.constant? = some (name, value)

/--
That of all declarations of a name the one at a position stands last in the source. What stands around something
comes before it there.
-/
structure DeclaresLast (enters : Kind → Bool) (name : String) (trees : List Tree) (position : Position)
    (value : Tree) : Prop where
  declared : Declares enters name trees position value
  last : ∀ other initializer, Declares enters name trees other initializer → ¬List.Lex (· < ·) position other

/-- That no item with a scope of its own declares a name: all its declarations stand in the blocks around. -/
def DeclaredInBlocks (name : String) (trees : List Tree) : Prop :=
  ∀ position value, Declares Kind.isSearched name trees position value →
    Declares Kind.isOpen name trees position value

section

variable {enters : Kind → Bool} {name : String} {position : Position} {value : Tree}

theorem Leads.mono {wider : Kind → Bool} (more : ∀ kind, enters kind = true → wider kind = true)
    {trees : List Tree} {tree : Tree} (leads : Leads enters trees position tree) :
    Leads wider trees position tree := by
  induction leads with
  | here member => exact .here member
  | inside member entered below ih => exact .inside member (more _ entered) ih

theorem Declares.searched {trees : List Tree} (declared : Declares Kind.isOpen name trees position value) :
    Declares Kind.isSearched name trees position value := by
  obtain ⟨tree, leads, constant⟩ := declared
  exact ⟨tree, leads.mono fun _ => Kind.isSearched_of_isOpen, constant⟩

/-- Where nothing has a scope of its own, all declarations stand in blocks. -/
theorem declaredInBlocks_of_open (name : String) {trees : List Tree}
    (plain : ∀ tree ∈ trees, ∀ part ∈ tree.subtrees,
      part.kind? ∉ [some Kind.itemMod, some Kind.itemTrait, some Kind.itemImpl]) : DeclaredInBlocks name trees := by
  rintro position value ⟨tree, leads, constant⟩
  refine ⟨tree, ?_, constant⟩
  clear constant
  induction leads with
  | here member => exact .here member
  | @inside trees children kind _ _ _ member entered below ih =>
      have inTrees := List.mem_of_getElem? member
      refine .inside member ?_ (ih fun child inside part within =>
        plain _ inTrees part (Tree.subtrees_child inside within))
      have own := plain _ inTrees _ (Tree.mem_subtrees_self _)
      unfold Kind.isOpen
      split
      · exact absurd (show some Kind.itemMod ∈ _ by simp) own
      · exact absurd (show some Kind.itemTrait ∈ _ by simp) own
      · exact absurd (show some Kind.itemImpl ∈ _ by simp) own
      · exact entered

theorem DeclaresLast.inBlocks {trees : List Tree} (blocks : DeclaredInBlocks name trees)
    (last : DeclaresLast Kind.isSearched name trees position value) :
    DeclaresLast Kind.isOpen name trees position value :=
  ⟨blocks _ _ last.declared, fun _ _ other => last.last _ _ other.searched⟩

theorem Leads.unique {trees : List Tree} {tree other : Tree} (leads : Leads enters trees position tree)
    (again : Leads enters trees position other) : tree = other := by
  induction leads with
  | here member =>
      cases again with
      | here same =>
          rw [member] at same
          exact Option.some.inj same
      | inside _ _ below => cases below
  | inside member entered below ih =>
      cases again with
      | here same => cases below
      | inside same _ further =>
          rw [member] at same
          cases same
          exact ih further

/-- Only one declaration stands last. -/
theorem DeclaresLast.unique {trees : List Tree} (last : DeclaresLast enters name trees position value)
    {other : Position} {initializer : Tree} (again : DeclaresLast enters name trees other initializer) :
    value = initializer := by
  have numbers : ∀ x y : Nat, ¬x < y → ¬y < x → x = y := by omega
  have same : position = other :=
    List.lex_trichotomous numbers (again.last _ _ last.declared) (last.last _ _ again.declared)
  subst same
  obtain ⟨tree, leads, constant⟩ := last.declared
  obtain ⟨part, further, own⟩ := again.declared
  cases leads.unique further
  rw [constant] at own
  cases own
  rfl

theorem not_declares_nil : ¬Declares enters name [] position value := by
  rintro ⟨tree, leads, _⟩
  cases leads with
  | here member => cases member
  | inside member => cases member

theorem not_declares_token {token : Token} : ¬Declares enters name [.token token] position value := by
  rintro ⟨tree, leads, constant⟩
  cases leads with
  | @here _ index _ member =>
      cases index with
      | zero =>
          cases member
          cases constant
      | succ index => cases member
  | @inside _ _ _ index _ _ member => cases index <;> cases member

theorem declares_cons {tree : Tree} {rest : List Tree} :
    Declares enters name (tree :: rest) position value ↔
      (∃ below, position = 0 :: below ∧ Declares enters name [tree] position value) ∨
        ∃ index below, position = (index + 1) :: below ∧ Declares enters name rest (index :: below) value := by
  constructor
  · rintro ⟨part, leads, constant⟩
    cases leads with
    | @here _ index _ member =>
        cases index with
        | zero => exact .inl ⟨[], rfl, part, .here member, constant⟩
        | succ index => exact .inr ⟨index, [], rfl, part, .here member, constant⟩
    | @inside _ _ _ index below _ member entered inner =>
        cases index with
        | zero => exact .inl ⟨below, rfl, part, .inside member entered inner, constant⟩
        | succ index => exact .inr ⟨index, below, rfl, part, .inside member entered inner, constant⟩
  · rintro (⟨below, rfl, part, leads, constant⟩ | ⟨index, below, rfl, part, leads, constant⟩)
    · cases leads with
      | here member => exact ⟨part, .here member, constant⟩
      | inside member entered inner => exact ⟨part, .inside member entered inner, constant⟩
    · cases leads with
      | here member => exact ⟨part, .here member, constant⟩
      | inside member entered inner => exact ⟨part, .inside member entered inner, constant⟩

theorem declares_node {kind : Kind} {children : List Tree} :
    Declares enters name [.node kind children] position value ↔
      (position = [0] ∧ (Tree.node kind children).constant? = some (name, value)) ∨
        enters kind = true ∧ ∃ below, position = 0 :: below ∧ Declares enters name children below value := by
  constructor
  · rintro ⟨part, leads, constant⟩
    cases leads with
    | @here _ index _ member =>
        cases index with
        | zero =>
            cases member
            exact .inl ⟨rfl, constant⟩
        | succ index => cases member
    | @inside _ _ _ index below _ member entered inner =>
        cases index with
        | zero =>
            cases member
            exact .inr ⟨entered, below, rfl, part, inner, constant⟩
        | succ index => cases member
  · rintro (⟨rfl, constant⟩ | ⟨entered, below, rfl, part, leads, constant⟩)
    · exact ⟨_, .here rfl, constant⟩
    · exact ⟨part, .inside rfl entered leads, constant⟩

end

namespace ConstScope

/-- That a result is the constant declared last under a name, if there is one. -/
def Finds (name : String) (trees : List Tree) : Option Tree → Prop
  | none => ∀ position value, ¬Declares Kind.isSearched name trees position value
  | some value => ∃ position, DeclaresLast Kind.isSearched name trees position value

theorem last?_append (name : String) (front behind : List (String × Tree)) :
    last? name (front ++ behind) = (last? name behind).or (last? name front) := by
  rw [last?, List.reverse_append, List.lookup_append]
  rfl

theorem last?_toList {name : String} {own : Option (String × Tree)} {value : Tree} :
    last? name own.toList = some value ↔ own = some (name, value) := by
  cases own with
  | none => exact ⟨nofun, nofun⟩
  | some entry =>
      obtain ⟨other, initializer⟩ := entry
      show List.lookup name [(other, initializer)] = some value ↔ _
      rw [List.lookup_cons, List.lookup_nil]
      by_cases same : name = other
      · simp [same]
      · simp [beq_false_of_ne same, Ne.symm same]

/-- What is declared in later trees stands behind what is declared in the first one. -/
theorem finds_cons {name : String} {tree : Tree} {rest : List Tree} {first later : Option Tree}
    (own : Finds name [tree] first) (behind : Finds name rest later) : Finds name (tree :: rest) (later.or first) := by
  cases later with
  | some value =>
      -- positions in the first tree begin with zero, so none of them stands behind
      obtain ⟨position, declared, last⟩ := behind
      cases position with
      | nil =>
          obtain ⟨_, leads, _⟩ := declared
          cases leads
      | cons index below =>
          refine ⟨(index + 1) :: below, declares_cons.mpr (.inr ⟨index, below, rfl, declared⟩), ?_⟩
          intro other initializer found
          rcases declares_cons.mp found with ⟨further, rfl, _⟩ | ⟨number, further, rfl, inside⟩
          · rw [List.cons_lex_cons_iff]
            exact not_or.mpr ⟨Nat.not_lt_zero _, fun both => Nat.succ_ne_zero _ both.1⟩
          · have before := last _ _ inside
            rw [List.cons_lex_cons_iff] at before ⊢
            exact mt (Or.imp Nat.lt_of_succ_lt_succ (And.imp_left Nat.succ.inj)) before
  | none =>
      have inFirst : ∀ position initializer, Declares Kind.isSearched name (tree :: rest) position initializer →
          Declares Kind.isSearched name [tree] position initializer := by
        intro position initializer found
        rcases declares_cons.mp found with ⟨_, _, found⟩ | ⟨_, _, _, found⟩
        · exact found
        · exact absurd found (behind _ _)
      cases first with
      | none => exact fun position initializer found => own _ _ (inFirst _ _ found)
      | some value =>
          obtain ⟨position, declared, last⟩ := own
          refine ⟨position, declares_cons.mpr ?_, fun other initializer found => last _ _ (inFirst _ _ found)⟩
          rcases declares_cons.mp declared with first | ⟨_, _, _, found⟩
          · obtain ⟨below, same, _⟩ := first
            exact .inl ⟨below, same, declared⟩
          · exact absurd found not_declares_nil

/-- What is declared inside of a constant stands behind the constant. -/
theorem finds_node {name : String} {kind : Kind} {children : List Tree} (searched : kind.isSearched = true)
    {inner : Option Tree} (below : Finds name children inner) :
    Finds name [.node kind children] (inner.or (last? name (Tree.node kind children).constant?.toList)) := by
  cases inner with
  | some value =>
      obtain ⟨position, declared, last⟩ := below
      refine ⟨0 :: position, declares_node.mpr (.inr ⟨searched, position, rfl, declared⟩), ?_⟩
      intro other initializer found
      rcases declares_node.mp found with ⟨rfl, _⟩ | ⟨_, further, rfl, inside⟩
      · rw [List.cons_lex_cons_iff]
        exact not_or.mpr ⟨Nat.lt_irrefl 0, fun both => List.not_lex_nil both.2⟩
      · rw [List.cons_lex_cons_iff]
        exact not_or.mpr ⟨Nat.lt_irrefl 0, fun both => last _ _ inside both.2⟩
  | none =>
      have only : ∀ position initializer, Declares Kind.isSearched name [.node kind children] position initializer →
          position = [0] ∧ (Tree.node kind children).constant? = some (name, initializer) := by
        intro position initializer found
        rcases declares_node.mp found with own | ⟨_, _, _, found⟩
        · exact own
        · exact absurd found (below _ _)
      cases own : last? name (Tree.node kind children).constant?.toList with
      | none =>
          intro position initializer found
          rw [last?_toList.mpr (only _ _ found).2] at own
          cases own
      | some value =>
          refine ⟨[0], declares_node.mpr (.inl ⟨rfl, last?_toList.mp own⟩), fun other initializer found => ?_⟩
          rw [(only _ _ found).1]
          exact List.lex_irrefl Nat.lt_irrefl [0]

theorem declared_node {kind : Kind} (searched : kind.isSearched = true) (children : List Tree) :
    declared (.node kind children) = (Tree.node kind children).constant?.toList ++ declaredAll children := by
  rw [declared] <;> rintro rfl <;> cases searched

theorem declared_closed {kind : Kind} (closed : kind.isSearched = false) (children : List Tree) :
    declared (.node kind children) = [] ∧ (Tree.node kind children).constant? = none := by
  unfold Kind.isSearched at closed
  split at closed
  · exact ⟨by rw [declared], rfl⟩
  · exact ⟨by rw [declared], rfl⟩
  · exact ⟨by rw [declared], rfl⟩
  · cases closed

theorem finds_each (name : String) {trees : List Tree}
    (each : ∀ tree ∈ trees, Finds name [tree] (last? name (declared tree))) :
    Finds name trees (last? name (declaredAll trees)) := by
  induction trees with
  | nil => exact fun _ _ => not_declares_nil
  | cons tree rest ih =>
      rw [declaredAll, last?_append]
      exact finds_cons (each tree List.mem_cons_self) (ih fun other member => each other (.tail _ member))

theorem finds_declared (name : String) (tree : Tree) : Finds name [tree] (last? name (declared tree)) := by
  induction tree using Tree.byChildren with
  | token t => exact fun _ _ => not_declares_token
  | node kind children ih =>
      cases searched : kind.isSearched with
      | true =>
          rw [declared_node searched, last?_append]
          exact finds_node searched (finds_each name ih)
      | false =>
          obtain ⟨nothing, none⟩ := declared_closed searched children
          rw [nothing]
          intro position value found
          rcases declares_node.mp found with ⟨_, own⟩ | ⟨entered, _⟩
          · rw [none] at own
            cases own
          · rw [searched] at entered
            cases entered

/-- The scope of a body finds the declarations that stand last. -/
theorem finds_declaredAll (name : String) (trees : List Tree) : Finds name trees (last? name (declaredAll trees)) :=
  finds_each name fun tree _ => finds_declared name tree

/-! ### What is visible -/

/--
The constant that a name means at a position among the statements of a block, or inside of something else: the one
in the innermost block around the position that declares the name. Its place in the block does not matter.
-/
def visible? (name : String) : (block : Bool) → List Tree → Position → Option Tree
  | _, _, [] => none
  | block, trees, index :: position =>
    let inner :=
      match trees[index]? with
      | some (.node kind children) => visible? name (decide (kind = Kind.group .brace)) children position
      | _ => none
    inner.or (if block then last? name (trees.filterMap Tree.constant?) else none)

theorem declares_of_last? {enters : Kind → Bool} {name : String} {trees : List Tree} {value : Tree}
    (found : last? name (trees.filterMap Tree.constant?) = some value) :
    ∃ position, Declares enters name trees position value := by
  obtain ⟨front, behind, same, _⟩ := List.lookup_eq_some_iff.mp found
  have entry : (name, value) ∈ trees.filterMap Tree.constant? := by
    rw [← List.mem_reverse, same]
    exact List.mem_append_right _ List.mem_cons_self
  obtain ⟨tree, member, constant⟩ := List.mem_filterMap.mp entry
  obtain ⟨index, treeAt⟩ := List.getElem?_of_mem member
  exact ⟨[index], tree, .here treeAt, constant⟩

/-- What is visible at a position that can be entered is declared where it can be entered. -/
theorem declares_of_visible? {enters : Kind → Bool} {name : String} {trees : List Tree} {place : Position}
    {part : Tree} (leads : Leads enters trees place part) {block : Bool} {value : Tree}
    (found : visible? name block trees place = some value) :
    ∃ position, Declares enters name trees position value := by
  have around : ∀ {trees : List Tree} {block : Bool},
      (if block then last? name (trees.filterMap Tree.constant?) else none) = some value →
        ∃ position, Declares enters name trees position value := by
    intro trees block found
    cases block with
    | true => exact declares_of_last? found
    | false => cases found
  induction leads generalizing block with
  | @here trees index part member =>
      have outer : visible? name block trees [index] =
          if block then last? name (trees.filterMap Tree.constant?) else none := by
        rw [visible?, member]
        cases part <;> rfl
      rw [outer] at found
      exact around found
  | @inside trees children kind index position part member entered below ih =>
      rw [visible?, member] at found
      rcases Option.or_eq_some_iff.mp found with inner | ⟨_, own⟩
      · obtain ⟨further, tree, leads, constant⟩ := ih inner
        exact ⟨index :: further, tree, .inside member entered leads, constant⟩
      · exact around own

end ConstScope

namespace Specification

theorem configured_eq_evaluate {scope : ConstScope} {signature argument : Tree} {type : Descriptor}
    {configured : Option Constant}
    (checked : configuredConstant scope signature type (some (some argument)) = .ok configured) :
    configured = scope.evaluate argument :=
  (configuredConstant_eq_ok_iff.mp checked).1

/--
Which constant a configuration reads by a name that no item of the body declares in a scope of its own. It is the
one declared last in the source among all blocks of the body, or that of the module if none of them declares the
name. So it is the one visible at a place, or that of the module where none is, wherever no other block declares
the name behind the visible one.
-/
theorem configured_of_name {settings : Settings} {catalog : Catalog} {test : Test} {specification : Specification}
    (made : ofTest catalog test (Sites.ofBody settings test.function.body) = .ok (some specification))
    {method : MethodSpecification} (member : method ∈ specification.methods) {attributes path : Tree} {name : String}
    (given : (Sites.ofBody settings test.function.body).configured? method.name =
      some (some (.node .pathExpr [attributes, path]))) (single : path.names = [name])
    (blocks : DeclaredInBlocks name test.function.body.statements) :
    let statements := test.function.body.statements
    let scope := ConstScope.ofBody test.function.body (catalog.constants test.module)
    ((∃ position value, DeclaresLast Kind.isOpen name statements position value ∧
          method.configured = scope.evaluateWithin 16 value) ∨
        (∀ position value, ¬Declares Kind.isOpen name statements position value) ∧
          method.configured = (ConstScope.last? name scope.module).bind (scope.evaluateWithin 16)) ∧
      ∀ place part, Leads Kind.isOpen statements place part →
        (∀ position value, DeclaresLast Kind.isOpen name statements position value →
          ConstScope.visible? name true statements place = some value) →
        method.configured = ((ConstScope.visible? name true statements place).or
          (ConstScope.last? name scope.module)).bind (scope.evaluateWithin 16) := by
  intro statements scope
  have read : method.configured = (scope.lookup name).bind (scope.evaluateWithin 16) := by
    obtain ⟨_, contract, built⟩ := ofContract_of_ofTest made
    obtain ⟨signature, _, own⟩ := ofContract_builds built method member
    obtain ⟨_, _, _, checked⟩ := method_eq_ok own
    rw [given] at checked
    have named : ConstScope.constantName path = some name := by rw [ConstScope.constantName, single]
    rw [configured_eq_evaluate checked]
    show scope.evaluateWithin (16 + 1) _ = _
    rw [ConstScope.evaluateWithin_succ, ConstScope.Form.ofTree_path named]
  have finds := ConstScope.finds_declaredAll name statements
  cases found : ConstScope.last? name (ConstScope.declaredAll statements) with
  | some value =>
      rw [found] at finds
      obtain ⟨position, last⟩ := finds
      have own : method.configured = scope.evaluateWithin 16 value := by
        rw [read, ConstScope.lookup_of_body (show ConstScope.last? name scope.body = some value from found)]
        rfl
      refine ⟨.inl ⟨position, value, last.inBlocks blocks, own⟩, fun place part leads visible => ?_⟩
      rw [visible position value (last.inBlocks blocks), own]
      rfl
  | none =>
      rw [found] at finds
      have none : ∀ position value, ¬Declares Kind.isOpen name statements position value :=
        fun position value declared => finds position value declared.searched
      have own : method.configured = (ConstScope.last? name scope.module).bind (scope.evaluateWithin 16) := by
        rw [read, ConstScope.lookup_of_module (show ConstScope.last? name scope.body = Option.none from found)]
      refine ⟨.inr ⟨none, own⟩, fun place part leads _ => ?_⟩
      have invisible : ConstScope.visible? name true statements place = Option.none := by
        refine Option.eq_none_iff_forall_ne_some.mpr fun value visible => ?_
        obtain ⟨position, declared⟩ := ConstScope.declares_of_visible? leads visible
        exact none position value declared
      rw [invisible, own, Option.none_or]

/-- A contract, and a test with some statements behind its double. -/
def sizeItems (statements : List Tree) : List Tree :=
  [Tree.plainTrait "Gauge" [Tree.returningMethod "size" (Tree.namedType ["i32"])],
    Tree.testFunction "reads" (Tree.creation "Ghost" ["Gauge"] :: statements)]

/-- Behind `const SIZE: i32 = 1;`, the block `{ const SIZE: i32 = 2; gauge.size().returns(SIZE); }` reads its own. -/
theorem configured_of_name_inner :
    let items := sizeItems [Tree.constantItem "SIZE" (Tree.namedType ["i32"]) (Tree.literalExpr "1"),
      Tree.blockStatement [Tree.constantItem "SIZE" (Tree.namedType ["i32"]) (Tree.literalExpr "2"),
        Tree.configuration "gauge" "size" (Tree.nameExpr ["SIZE"])]]
    ∃ test ∈ (Catalog.ofItems "samples" items).tests, ∃ specification,
      ofTest (.ofItems "samples" items) test (Sites.ofBody {} test.function.body) = .ok (some specification) ∧
      ∃ size, specification.methods = [size] ∧ size.configured = some (.int 2) := by
  intro items
  obtain ⟨test, inCatalog, specification, made, size, methods, given, statements⟩ :
      ∃ test ∈ (Catalog.ofItems "samples" items).tests, ∃ specification,
        ofTest (.ofItems "samples" items) test (Sites.ofBody {} test.function.body) = .ok (some specification) ∧
        ∃ size, specification.methods = [size] ∧
          (Sites.ofBody {} test.function.body).configured? size.name = some (some (Tree.nameExpr ["SIZE"])) ∧
          test.function.body.statements = [Tree.creation "Ghost" ["Gauge"],
            Tree.constantItem "SIZE" (Tree.namedType ["i32"]) (Tree.literalExpr "1"),
            Tree.blockStatement [Tree.constantItem "SIZE" (Tree.namedType ["i32"]) (Tree.literalExpr "2"),
              Tree.configuration "gauge" "size" (Tree.nameExpr ["SIZE"])]] :=
    ⟨_, .head _, _, rfl, _, rfl, rfl, rfl⟩
  refine ⟨test, inCatalog, specification, made, size, methods, ?_⟩
  have member : size ∈ specification.methods := by rw [methods]; exact .head _
  have blocks : DeclaredInBlocks "SIZE" test.function.body.statements := by
    rw [statements]
    exact declaredInBlocks_of_open "SIZE" (by decide)
  have declared : ConstScope.last? "SIZE" (ConstScope.declaredAll test.function.body.statements) =
      some (Tree.literalExpr "2") := by
    rw [statements]
    rfl
  have finds := ConstScope.finds_declaredAll "SIZE" test.function.body.statements
  rw [declared] at finds
  obtain ⟨position, last⟩ := finds
  have visible : ConstScope.visible? "SIZE" true test.function.body.statements [2, 0, 2, 2, 0] =
      some (Tree.literalExpr "2") := by
    rw [statements]
    rfl
  have leads : Leads Kind.isOpen test.function.body.statements [2, 0, 2, 2, 0]
      (Tree.methodCall (Tree.methodCall (.node .pathExpr [Tree.noAttributes, Tree.plainPath ["gauge"]]) "size" [])
        "returns" [Tree.nameExpr ["SIZE"]]) := by
    rw [statements]
    exact .inside rfl rfl (.inside rfl rfl (.inside rfl rfl (.inside rfl rfl (.here rfl))))
  have single : (Tree.plainPath ["SIZE"]).names = ["SIZE"] := rfl
  obtain ⟨_, read⟩ := configured_of_name made member given single blocks
  rw [read _ _ leads fun _ value own => own.unique (last.inBlocks blocks) ▸ visible, visible]
  rfl

/-- A constant in a block behind a configuration takes the place of the one that is visible there. -/
theorem configured_invisible :
    let items := sizeItems [Tree.constantItem "SIZE" (Tree.namedType ["i32"]) (Tree.literalExpr "1"),
      Tree.configuration "gauge" "size" (Tree.nameExpr ["SIZE"]),
      Tree.blockStatement [Tree.constantItem "SIZE" (Tree.namedType ["i32"]) (Tree.literalExpr "2")]]
    ∃ test ∈ (Catalog.ofItems "samples" items).tests, ∃ specification,
      ofTest (.ofItems "samples" items) test (Sites.ofBody {} test.function.body) = .ok (some specification) ∧
      ConstScope.visible? "SIZE" true test.function.body.statements [2, 0] = some (Tree.literalExpr "1") ∧
      ∃ size, specification.methods = [size] ∧
        (Sites.ofBody {} test.function.body).configured? size.name = some (some (Tree.nameExpr ["SIZE"])) ∧
        size.configured = some (.int 2) :=
  ⟨_, .head _, _, rfl, rfl, _, rfl, rfl, rfl⟩

end Specification

end TestDouble
