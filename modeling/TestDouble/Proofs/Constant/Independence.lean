import Mathlib.Data.Nat.Find
import TestDouble.Proofs.Constant.Form
import TestDouble.Proofs.Source.Plain
/-!
# Constants of a module and the bodies that read them

A test looks for every name in its own body first, also for a name behind `self`, and for those in the
initializers of its module. So what its body declares can change what a constant of the module stands for. It
cannot exactly if the body declares none of the names that evaluation asks for in the module itself.
-/

namespace TestDouble.ConstScope

/-- The scope without what the body declares. -/
def atModule (scope : ConstScope) : ConstScope := { scope with body := [] }

/-- The scope of a body that declares nothing. -/
def ofModule (items : List Tree) : ConstScope := { body := [], module := items.filterMap Tree.constant? }

theorem lookup_atModule {scope : ConstScope} {name : String} (undeclared : last? name scope.body = none) :
    scope.lookup name = scope.atModule.lookup name :=
  lookup_of_module undeclared

/-- As long as the body declares none of the names that are asked for, the value is that of the module. -/
theorem evaluateWithin_atModule {scope : ConstScope} {fuel : Nat} {expr : Tree}
    (unshadowed : ∀ depth < fuel, ∀ name, scope.atModule.Needs depth expr name → last? name scope.body = none) :
    scope.evaluateWithin fuel expr = scope.atModule.evaluateWithin fuel expr := by
  induction fuel generalizing expr with
  | zero => rfl
  | succ fuel ih =>
      rw [evaluateWithin_succ, evaluateWithin_succ]
      cases form : Form.ofTree expr with
      | known value => rfl
      | applied operation operand =>
          have below := ih fun depth less name needs =>
            unshadowed (depth + 1) (Nat.succ_lt_succ less) name (.operand form needs)
          exact congrArg (Option.bind · operation) below
      | named name =>
          have same := lookup_atModule (unshadowed 0 (Nat.succ_pos fuel) name (.name form))
          show (scope.lookup name).bind _ = (scope.atModule.lookup name).bind _
          rw [same]
          refine Option.bind_congr fun initializer found => ih fun depth less other needs => ?_
          exact unshadowed (depth + 1) (Nat.succ_lt_succ less) other (.initializer form found needs)

/--
What evaluation makes of a constant that it asks for in the module. A string passes through only where nothing
is made of the constant.
-/
theorem operation_of_needs {module : ConstScope} {depth : Nat} {expr : Tree} {name : String}
    (needs : module.Needs depth expr name) :
    ∃ operation : Constant → Option Constant,
      (operation = some ∨ ∀ text, operation (.str text) = none) ∧
        ∀ scope : ConstScope, scope.atModule = module →
          (∀ less < depth, ∀ other, module.Needs less expr other → last? other scope.body = none) →
          ∀ fuel, scope.evaluateWithin (depth + 1 + fuel) expr =
            ((scope.lookup name).bind (scope.evaluateWithin fuel)).bind operation := by
  induction needs with
  | @name expr name form =>
      refine ⟨some, .inl rfl, fun scope _ _ fuel => ?_⟩
      rw [Nat.add_comm (0 + 1) fuel, evaluateWithin_succ, form, Option.bind_fun_some]
  | @operand depth expr operand outer name form below ih =>
      obtain ⟨inner, strings, asked⟩ := ih
      refine ⟨fun value => (inner value).bind outer, ?_, fun scope same unshadowed fuel => ?_⟩
      · rcases strings with rfl | lost
        · exact Form.operation_str form
        · refine .inr fun text => ?_
          show (inner (.str text)).bind outer = none
          rw [lost, Option.bind_none]
      · have rest := asked scope same (fun less smaller other needs =>
          unshadowed (less + 1) (Nat.succ_lt_succ smaller) other (.operand form needs)) fuel
        rw [Nat.add_right_comm (depth + 1) 1 fuel, evaluateWithin_succ, form]
        show (scope.evaluateWithin (depth + 1 + fuel) operand).bind outer = _
        rw [rest, Option.bind_assoc]
  | @initializer depth expr initializer first name form found below ih =>
      obtain ⟨operation, strings, asked⟩ := ih
      refine ⟨operation, strings, fun scope same unshadowed fuel => ?_⟩
      have rest := asked scope same (fun less smaller other needs =>
        unshadowed (less + 1) (Nat.succ_lt_succ smaller) other (.initializer form found needs)) fuel
      have own := lookup_atModule (unshadowed 0 (Nat.succ_pos depth) first (.name form))
      rw [same, found] at own
      rw [Nat.add_right_comm (depth + 1) 1 fuel, evaluateWithin_succ, form]
      show (scope.lookup first).bind (scope.evaluateWithin (depth + 1 + fuel)) = _
      rw [own, Option.bind_some, rest]

/-! ### Bodies -/

/-- That all constants declared in a body have names of a kind. -/
def DeclaresOnly (names : String → Prop) (body : Tree) : Prop :=
  ∀ entry ∈ declaredAll body.statements, names entry.1

theorem undeclared_of_only {names : String → Prop} {body : Tree} (only : DeclaresOnly names body) {name : String}
    (other : ¬names name) (items : List Tree) : last? name (ofBody body items).body = none := by
  rw [last?, List.lookup_eq_none_iff]
  intro entry member
  have named := only entry (List.mem_reverse.mp member)
  rw [bne_iff_ne]
  rintro rfl
  exact other named

/-- A body that declares nothing but one constant, which holds a string. -/
def textBody (name spelling : String) : Tree :=
  Tree.body [Tree.constantItem name (Tree.namedType ["str"]) (Tree.literalExpr spelling)]

theorem declaresOnly_textBody {names : String → Prop} {name : String} (own : names name) (spelling : String) :
    DeclaresOnly names (textBody name spelling) := by
  intro entry member
  rw [List.mem_singleton.mp (show entry ∈ [(name, Tree.literalExpr spelling)] from member)]
  exact own

theorem lookup_textBody (name spelling : String) (items : List Tree) :
    (ofBody (textBody name spelling) items).lookup name = some (Tree.literalExpr spelling) :=
  lookup_of_body (List.lookup_cons_self (α := String))

/-- A string declared under the first name that is asked for shows, whatever value was there before. -/
theorem differs_of_needs {items : List Tree} {expr : Tree} {names : String → Prop} {depth : Nat} {name : String}
    (within : depth < maxSteps) (needs : (ofModule items).Needs depth expr name) (own : names name)
    (first : ∀ less < depth, ∀ other, (ofModule items).Needs less expr other → ¬names other) {body : Tree}
    (only : DeclaresOnly names body) {value : Constant} (found : (ofBody body items).evaluate expr = some value) :
    ∃ twin, DeclaresOnly names twin ∧ (ofBody twin items).evaluate expr ≠ some value := by
  obtain ⟨operation, strings, asked⟩ := operation_of_needs needs
  obtain ⟨fuel, total⟩ := Nat.exists_eq_add_of_le within
  have reached : ∀ body, DeclaresOnly names body → (ofBody body items).evaluate expr =
      (((ofBody body items).lookup name).bind ((ofBody body items).evaluateWithin fuel)).bind operation := by
    intro body only
    rw [evaluate, total]
    refine asked (ofBody body items) rfl (fun less smaller other needs => ?_) fuel
    exact undeclared_of_only only (first less smaller other needs) items
  cases fuel with
  | zero =>
      -- the limit ends here, so no body gives the expression a value
      rw [reached body only] at found
      obtain ⟨inner, initializer, _⟩ := Option.bind_eq_some_iff.mp found
      obtain ⟨_, _, none⟩ := Option.bind_eq_some_iff.mp initializer
      cases none
  | succ fuel =>
      have differs : ∀ spelling text, literalValue spelling = some (.str text) → .str text ≠ value →
          (ofBody (textBody name spelling) items).evaluate expr ≠ some value := by
        intro spelling text read other
        have held : (ofBody (textBody name spelling) items).evaluateWithin (fuel + 1) (Tree.literalExpr spelling) =
            some (.str text) := read
        rw [reached _ (declaresOnly_textBody own spelling), lookup_textBody, Option.bind_some, held, Option.bind_some]
        rcases strings with rfl | lost
        · exact fun same => other (Option.some.inj same)
        · rw [lost]
          exact nofun
      by_cases empty : value = .str ""
      · subst empty
        exact ⟨textBody name "\"a\"", declaresOnly_textBody own _, differs _ "a" rfl (by decide)⟩
      · exact ⟨textBody name "\"\"", declaresOnly_textBody own _, differs _ "" rfl fun same => empty same.symm⟩

/--
A name behind `self` means what the name alone means. Which value an expression has depends on nothing that bodies
declare under names of some kind exactly if evaluation, within its limit, asks for no such name in the module
itself, or if the expression is no constant in any of these bodies.
-/
theorem evaluate_independent_iff (items : List Tree) :
    (∀ body name, (ofBody body items).evaluate (Tree.nameExpr ["self", name]) =
        (ofBody body items).evaluate (Tree.nameExpr [name])) ∧
      ∀ (expr : Tree) (names : String → Prop),
        (∀ body twin, DeclaresOnly names body → DeclaresOnly names twin →
            (ofBody body items).evaluate expr = (ofBody twin items).evaluate expr) ↔
          (∀ depth < 17, ∀ name, (ofModule items).Needs depth expr name → ¬names name) ∨
            ∀ body, DeclaresOnly names body → (ofBody body items).evaluate expr = none := by
  refine ⟨fun body name => ?_, fun expr names => ⟨fun same => ?_, ?_⟩⟩
  · show evaluateWithin _ (16 + 1) _ = evaluateWithin _ (16 + 1) _
    rw [evaluateWithin_succ, evaluateWithin_succ]
    rfl
  · by_contra neither
    obtain ⟨asked, valued⟩ := not_or.mp neither
    push Not at asked valued
    obtain ⟨depth, within, name, needs, own⟩ := asked
    obtain ⟨body, only, valued⟩ := valued
    obtain ⟨value, found⟩ := Option.ne_none_iff_exists'.mp valued
    classical
    have some : ∃ depth name, (ofModule items).Needs depth expr name ∧ names name := ⟨depth, name, needs, own⟩
    obtain ⟨earliest, asks, named⟩ := Nat.find_spec some
    have bounded := Nat.lt_of_le_of_lt (Nat.find_min' some ⟨name, needs, own⟩) within
    obtain ⟨twin, twinOnly, differs⟩ := differs_of_needs bounded asks named
      (fun less smaller other needs named => Nat.find_min some smaller ⟨other, needs, named⟩) only found
    exact differs ((same twin body twinOnly only).trans found)
  · rintro (unasked | never) body twin only twinOnly
    · have own : ∀ body, DeclaresOnly names body →
          (ofBody body items).evaluate expr = (ofModule items).evaluate expr := by
        intro body only
        refine evaluateWithin_atModule fun depth less name needs => ?_
        exact undeclared_of_only only (unasked depth less name needs) items
      rw [own body only, own twin twinOnly]
    · rw [never body only, never twin twinOnly]

/-- `const A: i32 = 1;` and `const B: i32 = A;`. -/
def countItems : List Tree :=
  [Tree.constantItem "A" (Tree.namedType ["i32"]) (Tree.literalExpr "1"),
    Tree.constantItem "B" (Tree.namedType ["i32"]) (Tree.nameExpr ["A"])]

/-- With `const A: i32 = 2;` in its body, a test reads other values for `self::A` and for `B`. -/
theorem evaluate_shadowed :
    let shadowing := Tree.body [Tree.constantItem "A" (Tree.namedType ["i32"]) (Tree.literalExpr "2")]
    (ofBody (Tree.body []) countItems).evaluate (Tree.nameExpr ["self", "A"]) = some (.int 1) ∧
      (ofBody shadowing countItems).evaluate (Tree.nameExpr ["self", "A"]) = some (.int 2) ∧
      (ofBody (Tree.body []) countItems).evaluate (Tree.nameExpr ["B"]) = some (.int 1) ∧
      (ofBody shadowing countItems).evaluate (Tree.nameExpr ["B"]) = some (.int 2) :=
  ⟨rfl, rfl, rfl, rfl⟩

end TestDouble.ConstScope
