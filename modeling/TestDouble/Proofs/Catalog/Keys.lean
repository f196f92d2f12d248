import TestDouble.Proofs.Catalog.Tests
import TestDouble.Proofs.Name
/-!
# The keys of tests

In a well-formed annotated module every test stands below modules with valid names and has a valid name
itself. Tests that are told apart by these names, raw or not, have different keys.
-/

namespace TestDouble

namespace Tree

theorem isValid_module {item : Tree} {name : String} {content : List Tree}
    (module : item.asModule? = some ⟨name, some content⟩) (formed : item.wellFormed = true) :
    Name.isValid name = true := by
  obtain ⟨attributes, visibility, unsafety, word, inner, rfl⟩ := inline_module_shape module
  have own : (ident name).wellFormed = true := wellFormed_child formed (by simp)
  exact own

theorem isValid_signature {children : List Tree} (formed : (Tree.node .signature children).wellFormed = true) :
    Name.isValid (Tree.node .signature children).signatureName = true := by
  have shape : isSignature children = true := wellFormed_fits formed
  obtain ⟨long, named⟩ := Bool.and_eq_true_iff.mp shape
  obtain ⟨own, found, declared⟩ : ∃ own, children[5]? = some own ∧ own.isDeclared = true := by
    unfold namesAt at named
    cases found : children[5]? with
    | none => rw [found] at named; cases named
    | some own => rw [found] at named; exact ⟨own, rfl, named⟩
  obtain ⟨name, rfl⟩ := isDeclared_exists declared
  have valid : (ident name).wellFormed = true := wellFormed_child formed (List.mem_of_getElem? found)
  match children, eq_of_beq long with
  | [_, _, _, _, _, _, _, _, _, _], _ =>
      cases found
      exact valid

theorem isValid_function {item : Tree} {function : Function} (found : item.asFunction? = some function)
    (formed : item.wellFormed = true) : Name.isValid function.name = true := by
  obtain ⟨outer, visibility, signature, body, rfl, rfl⟩ := function_shape found
  have shape : isFunction [.node .attributes outer, visibility, signature, body] = true := wellFormed_fits formed
  have inside : signature.wellFormed = true := wellFormed_child formed (by simp)
  obtain ⟨_, _, _, _, same, -⟩ := isFunction_shape shape
  cases same
  exact isValid_signature inside

end Tree

theorem Inline.valid {items content : List Tree} {path : ModulePath} (reached : Inline items path content)
    (formed : ∀ item ∈ items, item.wellFormed = true) : ∀ name ∈ path, Name.isValid name = true := by
  induction reached with
  | here items =>
      intro name member
      cases member
  | inner member module below ih =>
      intro name inside
      rcases List.mem_cons.mp inside with rfl | later
      · exact Tree.isValid_module module (formed _ member)
      · exact ih (Tree.wellFormed_content module (formed _ member)) name later

namespace Test

/-- What tells a test apart from others: its module and its name, raw or not. -/
def identity (test : Test) : ModulePath × String :=
  (test.module.map Name.unraw, Name.unraw test.function.name)

def key (root : String) (test : Test) : String := Name.key root test.module test.function.name

end Test

namespace Catalog

variable {root : String} {items : List Tree}

theorem valid_of_test (formed : ∀ item ∈ items, item.wellFormed = true) {test : Test}
    (member : test ∈ (ofItems root items).tests) :
    (∀ name ∈ test.module, Name.isValid name = true) ∧ Name.isValid test.function.name = true := by
  obtain ⟨content, reached, item, itemIn, found, _⟩ := mem_tests.mp member
  exact ⟨reached.valid formed, Tree.isValid_function found (reached.wellFormed formed item itemIn)⟩

/-- Tests have the same key exactly if nothing tells them apart. -/
theorem key_eq_iff (rooted : Name.isValid root = true) (formed : ∀ item ∈ items, item.wellFormed = true)
    {test other : Test} (member : test ∈ (ofItems root items).tests)
    (otherIn : other ∈ (ofItems root items).tests) :
    test.key root = other.key root ↔ test.identity = other.identity := by
  constructor
  · intro same
    obtain ⟨below, named⟩ := valid_of_test formed member
    obtain ⟨below', named'⟩ := valid_of_test formed otherIn
    obtain ⟨modules, names⟩ := Name.key_injective rooted below below' named named' same
    exact Prod.ext modules names
  · intro same
    obtain ⟨modules, names⟩ := Prod.mk.inj same
    rw [Test.key, Test.key, Name.key, Name.key, Name.parts, Name.parts, modules, names]

/-- That no two tests stand in the same module under the same name, raw or not. -/
def Distinct (catalog : Catalog) : Prop := (catalog.tests.map Test.identity).Nodup

instance (catalog : Catalog) : Decidable catalog.Distinct :=
  inferInstanceAs (Decidable (catalog.tests.map Test.identity).Nodup)

/-- Tests that are told apart have different keys. -/
theorem keys_distinct (rooted : Name.isValid root = true) (formed : ∀ item ∈ items, item.wellFormed = true)
    (distinct : (ofItems root items).Distinct) :
    (ofItems root items).tests.Pairwise fun test other => test.key root ≠ other.key root := by
  have apart := List.pairwise_map.mp distinct
  refine apart.imp_of_mem ?_
  exact fun member otherIn different same => different ((key_eq_iff rooted formed member otherIn).mp same)

end Catalog

end TestDouble
