import TestDouble.Proofs.Catalog.Tests
/-!
# Collecting in one pass

A catalog can be collected in one pass over the items. The pass keeps a table of the modules that it came to, in
which it enters a module before its items, and notes for every test the number of its module there. The scope of a
module is noted behind those of the modules in it. Read back through the table, this is the catalog.
-/

namespace TestDouble

structure Collection where
  /-- The modules in the order in which they begin. -/
  paths : List ModulePath
  /-- The scopes in the order in which their modules end. -/
  scopes : List (ModulePath × Scope)
  /-- The tests, each with the number of its module among the paths. -/
  tests : List (Nat × Function)

namespace Collection

def enter (found : Collection) (path : ModulePath) : Collection := { found with paths := found.paths ++ [path] }

def addTest (found : Collection) (number : Nat) (function : Function) : Collection :=
  { found with tests := found.tests ++ [(number, function)] }

def leave (found : Collection) (path : ModulePath) (items : List Tree) : Collection :=
  { found with scopes := found.scopes ++ [(path, Scope.ofItems items)] }

mutual

/-- Goes on with an item of the module that has the given path, which is the one of the given number. -/
def addItem (path : ModulePath) (number : Nat) (found : Collection) : Tree → Collection
  | .node .itemMod [_, _, _, _, .token (.ident name), .node (.group .brace) (_ :: items)] =>
    let inner := path ++ [name]
    (addItems inner found.paths.length (found.enter inner) items).leave inner items
  | item =>
    match item.asFunction? with
    | some function => if Catalog.isTest function then found.addTest number function else found
    | none => found

def addItems (path : ModulePath) (number : Nat) (found : Collection) : List Tree → Collection
  | [] => found
  | item :: rest => addItems path number (addItem path number found item) rest

end

def ofItems (items : List Tree) : Collection :=
  (addItems [] 0 (enter ⟨[], [], []⟩ []) items).leave [] items

/-- The test that an entry stands for, if its number is one of the table. -/
def test? (found : Collection) (entry : Nat × Function) : Option Test :=
  found.paths[entry.1]?.map fun path => ⟨path, entry.2⟩

/-- What was collected, read back through the table. -/
def catalog? (root : String) (found : Collection) : Option Catalog :=
  (found.tests.mapM found.test?).map fun tests => ⟨root, found.scopes, tests⟩

/-! ### What a part of the pass adds -/

/-- That the table only grows, and that these scopes and tests come behind those from before. -/
structure Adds (before after : Collection) (scopes : List (ModulePath × Scope)) (tests : List Test) : Prop where
  paths : before.paths <+: after.paths
  scopes : after.scopes = before.scopes ++ scopes
  tests : ∃ entries, after.tests = before.tests ++ entries ∧
    List.Forall₂ (fun entry test => after.test? entry = some test) entries tests

variable {before between after : Collection} {scopes more : List (ModulePath × Scope)} {tests others : List Test}

namespace Adds

theorem refl (found : Collection) : Adds found found [] [] :=
  ⟨List.prefix_rfl, (List.append_nil _).symm, [], (List.append_nil _).symm, .nil⟩

/-- A number keeps its meaning, since the table only grows. -/
theorem numbered (adds : Adds before after scopes tests) {number : Nat} {path : ModulePath}
    (found : before.paths[number]? = some path) : after.paths[number]? = some path := by
  obtain ⟨behind, same⟩ := adds.paths
  rw [← same, List.getElem?_append_left (List.getElem?_eq_some_iff.mp found).1]
  exact found

theorem test? (adds : Adds before after scopes tests) {entry : Nat × Function} {test : Test}
    (read : before.test? entry = some test) : after.test? entry = some test := by
  obtain ⟨path, found, rfl⟩ := Option.map_eq_some_iff.mp read
  exact Option.map_eq_some_iff.mpr ⟨path, adds.numbered found, rfl⟩

theorem trans (first : Adds before between scopes tests) (second : Adds between after more others) :
    Adds before after (scopes ++ more) (tests ++ others) := by
  obtain ⟨entries, same, read⟩ := first.tests
  obtain ⟨rest, also, readLater⟩ := second.tests
  refine ⟨first.paths.trans second.paths, ?_, entries ++ rest, ?_, ?_⟩
  · rw [second.scopes, first.scopes, List.append_assoc]
  · rw [also, same, List.append_assoc]
  · exact List.rel_append (read.imp fun _ _ => second.test?) readLater

/-- The entries that are there in the end stand for the tests that were added to none. -/
theorem mapM_test? (adds : Adds before after scopes tests) (none : before.tests = []) :
    after.tests.mapM after.test? = some tests := by
  obtain ⟨entries, same, read⟩ := adds.tests
  have each {entries : List (Nat × Function)} {tests : List Test}
      (read : List.Forall₂ (fun entry test => after.test? entry = some test) entries tests) :
      entries.mapM after.test? = some tests := by
    induction read with
    | nil => rfl
    | cons first rest ih =>
        rw [List.mapM_cons, first, ih]
        rfl
  rw [same, none, List.nil_append]
  exact each read

end Adds

theorem adds_enter (found : Collection) (path : ModulePath) : Adds found (found.enter path) [] [] :=
  ⟨List.prefix_append _ _, (List.append_nil _).symm, [], (List.append_nil _).symm, .nil⟩

theorem adds_leave (found : Collection) (path : ModulePath) (items : List Tree) :
    Adds found (found.leave path items) [(path, Scope.ofItems items)] [] :=
  ⟨List.prefix_rfl, rfl, [], (List.append_nil _).symm, .nil⟩

theorem adds_addTest {found : Collection} {number : Nat} {path : ModulePath}
    (numbered : found.paths[number]? = some path) (function : Function) :
    Adds found (found.addTest number function) [] [⟨path, function⟩] := by
  refine ⟨List.prefix_rfl, (List.append_nil _).symm, [(number, function)], rfl, .cons ?_ .nil⟩
  exact Option.map_eq_some_iff.mpr ⟨path, numbered, rfl⟩

/-- The module that is entered next has the number of those entered before. -/
theorem numbered_enter (found : Collection) (path : ModulePath) :
    (found.enter path).paths[found.paths.length]? = some path :=
  List.getElem?_concat_length

/-! ### The pass -/

theorem addItem_module {path : ModulePath} {number : Nat} {found : Collection} {item : Tree} {name : String}
    {content : List Tree} (inline : item.asModule? = some ⟨name, some content⟩) :
    addItem path number found item =
      (addItems (path ++ [name]) found.paths.length (found.enter (path ++ [name])) content).leave (path ++ [name])
        content := by
  obtain ⟨attributes, visibility, unsafety, word, inner, rfl⟩ := Tree.inline_module_shape inline
  rfl

theorem addItem_other {path : ModulePath} {number : Nat} {found : Collection} {item : Tree}
    (other : ∀ name content, item.asModule? ≠ some ⟨name, some content⟩) :
    addItem path number found item =
      match item.asFunction? with
      | some function => if Catalog.isTest function then found.addTest number function else found
      | none => found := by
  unfold addItem
  split
  · exact absurd rfl (other _ _)
  · rfl

/-- A module adds what its items add, and its own scope behind that. -/
theorem adds_module {path : ModulePath} {number : Nat} {found : Collection} {item : Tree} {name : String}
    {content : List Tree} (inline : item.asModule? = some ⟨name, some content⟩)
    (inside : Adds (found.enter (path ++ [name]))
      (addItems (path ++ [name]) found.paths.length (found.enter (path ++ [name])) content)
      (Catalog.scopesBelow (path ++ [name]) content) (Catalog.testsIn (path ++ [name]) content)) :
    Adds found (addItem path number found item) (Catalog.scopesOf path item) (Catalog.testsOf path item) := by
  have whole := ((adds_enter found (path ++ [name])).trans inside).trans (adds_leave _ (path ++ [name]) content)
  rw [addItem_module inline, Catalog.scopesOf_eq, inline, Catalog.testsOf_module inline]
  simpa only [List.nil_append, List.append_nil] using whole

/-- An item that is no module adds itself, if it is a test. -/
theorem adds_other {path : ModulePath} {number : Nat} {found : Collection} {item : Tree}
    (numbered : found.paths[number]? = some path)
    (other : ∀ name content, item.asModule? ≠ some ⟨name, some content⟩) :
    Adds found (addItem path number found item) [] (Catalog.testsOf path item) := by
  rw [addItem_other other]
  cases viewed : item.asFunction? with
  | none =>
      rw [Catalog.testsOf_of_neither other viewed]
      exact .refl found
  | some function =>
      rw [Catalog.testsOf_function viewed]
      dsimp only
      by_cases tested : Catalog.isTest function = true
      · rw [if_pos tested, if_pos tested]
        exact adds_addTest numbered function
      · rw [if_neg tested, if_neg tested]
        exact .refl found

/-- The items of a module add the scopes of the modules below it and the tests in it. -/
theorem adds_items {items : List Tree} {path : ModulePath} {number : Nat} {found : Collection}
    (numbered : found.paths[number]? = some path) :
    Adds found (addItems path number found items) (Catalog.scopesBelow path items) (Catalog.testsIn path items) := by
  induction items using Tree.byContents generalizing path number found with
  | step items contents =>
      induction items generalizing found with
      | nil => exact .refl found
      | cons item rest ih =>
          have first : Adds found (addItem path number found item) (Catalog.scopesOf path item)
              (Catalog.testsOf path item) := by
            rcases item.inline_or_other with ⟨name, content, inline⟩ | other
            · exact adds_module inline
                (contents item List.mem_cons_self name content inline (numbered_enter found (path ++ [name])))
            · rw [Catalog.scopesOf_other other]
              exact adds_other numbered other
          exact first.trans (ih (fun later member => contents later (List.mem_cons_of_mem _ member))
            (first.numbered numbered))

/-- Reading back never fails, and gives the catalog. -/
theorem catalog?_ofItems (root : String) (items : List Tree) :
    (ofItems items).catalog? root = some (Catalog.ofItems root items) := by
  have entered : Adds (enter ⟨[], [], []⟩ []) (addItems [] 0 (enter ⟨[], [], []⟩ []) items)
      (Catalog.scopesBelow [] items) (Catalog.testsIn [] items) := adds_items (numbered_enter ⟨[], [], []⟩ [])
  have whole : Adds (enter ⟨[], [], []⟩ []) (ofItems items) _ _ := entered.trans (adds_leave _ [] items)
  rw [catalog?, whole.mapM_test? rfl, whole.scopes, List.append_nil]
  rfl

end Collection

end TestDouble
