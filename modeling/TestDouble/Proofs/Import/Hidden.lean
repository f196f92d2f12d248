import TestDouble.Proofs.Catalog.Declared
import TestDouble.Proofs.Import.Surface
/-!
# Imports that others cannot see

A name that a module only imports for itself is hidden from the modules beside it. The import of a unit avoids such a
name if it stands for something declared, or for something outside that is written in a way that means the same
everywhere. It leads through the hidden name for everything else that comes from outside.
-/

namespace TestDouble

namespace Tree

/-- The name that an item is declared under in its module. -/
def itemName? : Tree → Option String
  | .node .itemFn (_ :: _ :: signature :: _) => signature.asSignature?.map (·.name)
  | .node .itemStruct (_ :: _ :: _ :: .token (.ident name) :: _)
  | .node .itemEnum (_ :: _ :: _ :: .token (.ident name) :: _)
  | .node .itemUnion (_ :: _ :: _ :: .token (.ident name) :: _)
  | .node .itemType (_ :: _ :: _ :: .token (.ident name) :: _)
  | .node .itemConst (_ :: _ :: _ :: .token (.ident name) :: _)
  | .node .itemStatic (_ :: _ :: _ :: _ :: .token (.ident name) :: _)
  | .node .itemMod (_ :: _ :: _ :: _ :: .token (.ident name) :: _)
  | .node .itemTrait (_ :: _ :: _ :: _ :: _ :: .token (.ident name) :: _)
  | .node .itemTraitAlias (_ :: _ :: _ :: _ :: _ :: .token (.ident name) :: _)
  | .node .itemCrate [_, _, _, _, .token (.ident name), _]
  | .node .itemCrate [_, _, _, _, _, _, .token (.ident name), _] => some name
  | _ => none

/-- Whether an import is for its own module only: it has no visibility. -/
def isPrivateUse : Tree → Bool
  | .node .itemUse (_ :: visibility :: _) => visibility.isAbsent
  | _ => false

theorem itemName?_of_declares {item : Tree} {name : String} (declares : item.Declares name) :
    item.itemName? = some name := by
  rcases declares with trait | type | module
  · obtain ⟨own, viewed, rfl⟩ := Option.map_eq_some_iff.mp trait
    obtain ⟨_, _, _, _, _, name, _, _, _, _, _, rfl, rfl⟩ := trait_shape viewed
    rfl
  · obtain ⟨⟨own, aliased⟩, viewed, rfl⟩ := Option.map_eq_some_iff.mp type
    unfold declaredType? at viewed
    split at viewed <;> cases viewed <;> rfl
  · unfold moduleName? at module
    split at module
    · cases module
      rfl
    · cases module

end Tree

/-- Whether the import of a target avoids the name it is found by: it is declared, or written for everywhere. -/
def Target.isDirect : Target → Bool
  | .external _ own path => Import.isAbsolute path && path.getLast? = some own
  | _ => true

namespace Import
open Catalog

/-- That a module binds a name by imports for itself, and declares no item of the name. -/
structure Hidden (content : List Tree) (name : String) : Prop where
  bound : ∃ item ∈ content, ∃ path, .named name path ∈ item.bindings
  unseen : ∀ item ∈ content, ∀ path, .named name path ∈ item.bindings → item.isPrivateUse = true
  undeclared : ∀ item ∈ content, item.itemName? ≠ some name

theorem Hidden.declaredIn_eq_none {content : List Tree} {name : String} (hidden : Hidden content name)
    (place : ModulePath) : declaredIn place (Scope.ofItems content) name = none := by
  cases found : declaredIn place (Scope.ofItems content) name with
  | none => rfl
  | some target =>
      obtain ⟨item, member, declares⟩ := item_of_declared (declaredIn_eq_some.mp found)
      exact absurd (Tree.itemName?_of_declares declares) (hidden.undeclared item member)

/-! ### Where a path begins -/

/--
That a path, as written in a module, begins with a name of the module `place`: behind a `self`, if there is one, and a
`super` for every level up.
-/
def Begins (module place : ModulePath) (name : String) (names : List String) : Prop :=
  ∃ lead steps rest, Optional lead (List.replicate steps "super" ++ name :: rest) ∧ name ≠ "super" ∧
    names = lead ++ (List.replicate steps "super" ++ name :: rest) ∧ steps ≤ module.length ∧
    place = module.take (module.length - steps)

variable {catalog : Catalog} {module place : ModulePath} {name : String} {names : List String}

theorem Begins.ofPath (begins : Begins module place name names) :
    ofPath catalog module names = ofName catalog place name := by
  obtain ⟨lead, steps, rest, optional, ordinary, rfl, inside, rfl⟩ := begins
  rw [ofPath_optional catalog module optional, ascend_super steps module 0 ordinary rest, Nat.sub_eq_zero_of_le inside]
  rfl

theorem exists_supers (segments : List String) :
    ∃ steps rest, segments = List.replicate steps "super" ++ rest ∧ rest.head? ≠ some "super" := by
  induction segments with
  | nil => exact ⟨0, [], rfl, nofun⟩
  | cons first more ih =>
      by_cases up : first = "super"
      · obtain ⟨steps, rest, rfl, stop⟩ := ih
        exact ⟨steps + 1, rest, by rw [up, List.replicate_succ]; rfl, stop⟩
      · exact ⟨0, first :: more, rfl, fun same => up (Option.some.inj same)⟩

theorem ascend_rest_supers (steps : Nat) (module : ModulePath) (escaped : Nat) :
    (ascend module escaped (List.replicate steps "super")).rest = [] := by
  induction steps generalizing module escaped with
  | zero => rfl
  | succ steps ih =>
      rw [List.replicate_succ, ascend, if_pos rfl]
      split
      · exact ih _ _
      · exact ih _ _

/-- A path with an import begins in the module or above it, or it leads out of the annotated module. -/
theorem begins_of_ofPath {found : ImportPath} (computed : ofPath catalog module names = some found) :
    (∃ place name, Begins module place name names ∧ ofName catalog place name = some found) ∨
      ∃ escaped name, 0 < escaped ∧ found = fromRoot escaped [] name := by
  obtain ⟨lead, below, rfl, optional⟩ := exists_optional names
  rw [ofPath_optional catalog module optional] at computed
  obtain ⟨steps, rest, rfl, stop⟩ := exists_supers below
  cases rest with
  | nil =>
      have nothing : (ascend module 0 (List.replicate steps "super" ++ [])).rest = [] := by
        rw [List.append_nil]
        exact ascend_rest_supers steps module 0
      rw [ofAscent, nothing] at computed
      cases computed
  | cons name further =>
      have ordinary : name ≠ "super" := fun same => stop (congrArg some same)
      rw [ascend_super steps module 0 ordinary further, Nat.zero_add, ofAscent] at computed
      dsimp only at computed
      by_cases inside : steps ≤ module.length
      · rw [Nat.sub_eq_zero_of_le inside, if_neg (Nat.lt_irrefl 0)] at computed
        exact .inl ⟨_, name, ⟨lead, steps, further, optional, ordinary, rfl, inside, rfl⟩, computed⟩
      · have beyond : 0 < steps - module.length := by omega
        have top : module.take (module.length - steps) = [] := by
          rw [Nat.sub_eq_zero_of_le (Nat.le_of_not_le inside), List.take_zero]
        rw [if_pos beyond, top] at computed
        exact .inr ⟨_, name, beyond, (Option.some.inj computed).symm⟩

/-! ### Imports through a hidden name -/

theorem fromRoot_inj {above place : ModulePath} {own name : String}
    (same : fromRoot 0 above own = fromRoot 0 place name) : above = place ∧ own = name := by
  have joined := congrArg ImportPath.segments same
  simp only [fromRoot, List.append_assoc, List.append_cancel_left_eq] at joined
  obtain ⟨modules, names⟩ := List.append_inj' joined rfl
  exact ⟨modules, (List.cons.inj names).1⟩

theorem fromRoot_not_absolute {path : List String} (absolute : isAbsolute path = true) (place : ModulePath)
    (name : String) : (⟨path⟩ : ImportPath) ≠ fromRoot 0 place name := by
  intro same
  cases same
  simp [isAbsolute, WellKnown.standardCrates] at absolute

/-- The import of a name is through an undeclared name of a module exactly if it is that name and has to be. -/
theorem ofName_undeclared (named : catalog.Named) (undeclared : ∀ target, ¬catalog.Declares place name target)
    (above : ModulePath) (own : String) :
    ofName catalog above own = some (fromRoot 0 place name) ↔
      above = place ∧ own = name ∧ ∀ target ∈ catalog.resolve place [name], target.isDirect = false := by
  cases resolved : catalog.resolve above [own] with
  | none =>
      rw [ofName_unresolved resolved, Option.some_inj]
      constructor
      · intro same
        obtain ⟨rfl, rfl⟩ := fromRoot_inj same
        exact ⟨rfl, rfl, by rw [resolved]; nofun⟩
      · rintro ⟨rfl, rfl, _⟩
        rfl
  | some target =>
      rcases resolveWithin_sound named closed_all trivial resolved with
        ⟨found, under, declaration, _, declares⟩ | ⟨found, under, path, rfl, _⟩
      · rw [ofName_declared resolved declaration, Option.some_inj]
        constructor
        · intro same
          obtain ⟨rfl, rfl⟩ := fromRoot_inj same
          exact absurd declares (undeclared target)
        · rintro ⟨rfl, rfl, indirect⟩
          have notDirect := indirect target resolved
          cases target with
          | external => cases declaration
          | trait => cases notDirect
          | type => cases notDirect
          | module => cases notDirect
      · rw [ofName_external resolved]
        by_cases direct : (isAbsolute path && path.getLast? = some under) = true
        · rw [if_pos direct, Option.some_inj]
          constructor
          · exact fun same => absurd same (fromRoot_not_absolute (Bool.and_eq_true_iff.mp direct).1 place name)
          · rintro ⟨rfl, rfl, indirect⟩
            have notDirect : (isAbsolute path && path.getLast? = some under) = false := indirect _ resolved
            rw [direct] at notDirect
            cases notDirect
        · rw [if_neg direct, Option.some_inj]
          constructor
          · intro same
            obtain ⟨rfl, rfl⟩ := fromRoot_inj same
            refine ⟨rfl, rfl, ?_⟩
            rw [resolved]
            rintro target ⟨⟩
            exact Bool.eq_false_iff.mpr direct
          · rintro ⟨rfl, rfl, _⟩
            rfl

/-- A name that is bound by an import resolves to something: what the import leads to, or the import itself. -/
theorem exists_of_bound {scope : Scope} (found : catalog.scope? place = some scope) {path : List String}
    (bound : scope.imports.lookup name = some path) (plain : name ∉ Name.anchors) :
    ∃ target, catalog.resolve place [name] = some target := by
  have arrived : catalog.walk place [name] = some (.arrived place name) := rfl
  rw [resolve, maxImports, resolveWithin_arrived (normalize_plain plain) arrived, found, Option.bind_some, imported,
    bound]
  cases declaredIn place scope name with
  | some target => exact ⟨target, rfl⟩
  | none =>
      show ∃ target, (catalog.resolveWithin 16 place (path ++ [])).or (some (.external place name path)) = some target
      cases catalog.resolveWithin 16 place (path ++ []) with
      | some target => exact ⟨target, rfl⟩
      | none => exact ⟨_, rfl⟩

/-- An import that leads out of the annotated module leads to no module below it. -/
theorem fromRoot_escaped {items content : List Tree} (formed : ∀ item ∈ items, item.wellFormed = true)
    (inline : Inline items place content) (inner : place ≠ []) {escaped : Nat} (beyond : 0 < escaped) (own : String) :
    fromRoot escaped [] own ≠ fromRoot 0 place name := by
  intro same
  obtain ⟨fewer, rfl⟩ := Nat.exists_eq_add_one.mpr beyond
  cases inline with
  | here => exact inner rfl
  | @inner _ item first _ rest _ member module below =>
      have declared := Scope.mem_ofItems_modules.mpr ⟨item, member, Tree.moduleName?_of_asModule? module⟩
      have plain : first ∉ Name.anchors := (Scope.named_ofItems formed).modules first declared
      have segments := congrArg ImportPath.segments same
      simp only [fromRoot, List.replicate_succ, List.replicate_zero, List.cons_append, List.nil_append,
        List.cons.injEq] at segments
      exact plain (by rw [← segments.2.1]; decide)

/--
When the imports of a signature lead through a name that another module hides: exactly if a path of the signature that
needs an import begins with this name there, and the name stands for nothing declared, nor for something that the
module imports by a path which means the same everywhere and ends in the name. So a hidden name of something outside
is imported where it cannot be seen, unless it comes from the standard library or the crate under its own name.
-/
theorem surface_hidden {root : String} {items : List Tree} {tree : Tree} (formed : tree.wellFormed = true)
    (inline : tree.asModule? = some ⟨root, some items⟩) {place : ModulePath} {content : List Tree}
    (seen : (ofItems root items).scope? place = some (Scope.ofItems content)) (inner : place ≠ []) {name : String}
    (hidden : Hidden content name) (module : ModulePath) (signature : Tree) :
    (fromRoot 0 place name ∈ surface (ofItems root items) module signature ↔
      (∃ path ∈ paths signature, needsImport (ownParameters signature) path = true ∧
        Begins module place name path.names) ∧
      ∀ target ∈ (ofItems root items).resolve place [name], target.isDirect = false) ∧
      (name ∉ Name.anchors → ∃ target, (ofItems root items).resolve place [name] = some target) := by
  have named : (ofItems root items).Named := named_ofItems (Tree.wellFormed_content inline formed)
  have undeclared : ∀ target, ¬(ofItems root items).Declares place name target := by
    rintro target ⟨scope, found, declared⟩
    rw [seen] at found
    cases found
    rw [hidden.declaredIn_eq_none place] at declared
    cases declared
  refine ⟨?_, fun plain => ?_⟩
  · rw [surface, ImportPath.mem_sorted, mem_needed_iff]
    constructor
    · rintro ⟨path, member, needed, computed⟩
      rcases begins_of_ofPath computed with ⟨above, own, begins, same⟩ | ⟨escaped, own, beyond, same⟩
      · obtain ⟨rfl, rfl, indirect⟩ := (ofName_undeclared named undeclared above own).mp same
        exact ⟨⟨path, member, needed, begins⟩, indirect⟩
      · obtain ⟨_, standing, _⟩ := inline_of_scope? seen
        exact absurd same.symm (fromRoot_escaped (Tree.wellFormed_content inline formed) standing inner beyond own)
    · rintro ⟨⟨path, member, needed, begins⟩, indirect⟩
      have through := (ofName_undeclared named undeclared place name).mpr ⟨rfl, rfl, indirect⟩
      exact ⟨path, member, needed, begins.ofPath.trans through⟩
  · obtain ⟨item, member, path, binding⟩ := hidden.bound
    have listed : (name, path) ∈ (Scope.ofItems content).imports := by
      rw [Scope.ofItems_imports, List.mem_reverse]
      exact List.mem_flatMap.mpr ⟨item, member, List.mem_filterMap.mpr ⟨_, binding, rfl⟩⟩
    cases bound : (Scope.ofItems content).imports.lookup name with
    | some last => exact exists_of_bound seen bound plain
    | none =>
        have other := List.lookup_eq_none_iff.mp bound _ listed
        simp at other

/-- A module that imports a type from another crate for itself, and one of another module of its own crate. -/
def privateItems : List Tree :=
  [Tree.inlineModule "model" [Tree.aliasItem "Item" (Tree.namedType ["u8"])],
    Tree.inlineModule "wire" [Tree.plainImport ["serde"] "Value", Tree.plainImport ["super", "model"] "Item"]]

theorem hidden_value :
    Hidden [Tree.plainImport ["serde"] "Value", Tree.plainImport ["super", "model"] "Item"] "Value" where
  bound := ⟨_, .head _, ["serde", "Value"], .head _⟩
  unseen := by
    intro item member path _
    simp only [List.mem_cons, List.not_mem_nil, or_false] at member
    rcases member with rfl | rfl <;> rfl
  undeclared := by
    intro item member
    simp only [List.mem_cons, List.not_mem_nil, or_false] at member
    rcases member with rfl | rfl <;> nofun

/-- The type of the other crate is imported through the name that its module hides. -/
theorem surface_hidden_value :
    ∃ signature, (Tree.takingMethod "put" (Tree.namedType ["Value"])).methodSignature? = some signature ∧
      fromRoot 0 ["wire"] "Value" ∈ surface (.ofItems "samples" privateItems) ["wire"] signature := by
  have formed : (Tree.inlineModule "samples" privateItems).wellFormed = true := by decide
  have inline : (Tree.inlineModule "samples" privateItems).asModule? = some ⟨"samples", some privateItems⟩ := rfl
  have seen : (ofItems "samples" privateItems).scope? ["wire"] = some (Scope.ofItems _) := rfl
  have begins : Begins ["wire"] ["wire"] "Value" ["Value"] :=
    ⟨[], 0, [], .inl ⟨rfl, by decide⟩, by decide, rfl, by decide, rfl⟩
  refine ⟨_, rfl, (surface_hidden formed inline seen (by decide) hidden_value ["wire"] _).1.mpr ⟨?_, ?_⟩⟩
  · exact ⟨Tree.plainPath ["Value"], .head _, by decide, begins⟩
  · rintro target ⟨⟩
    rfl

/-- What the module declares elsewhere is imported from there, but what another crate declares is not. -/
theorem surface_unseen :
    (Tree.inlineModule "samples" privateItems).wellFormed = true ∧
      ∃ content, Inline privateItems ["wire"] content ∧ Hidden content "Value" ∧
        (∃ signature, (Tree.takingMethod "take" (Tree.namedType ["Item"])).methodSignature? = some signature ∧
          surface (.ofItems "samples" privateItems) ["wire"] signature = [⟨["super", "model", "Item"]⟩]) ∧
        ∃ signature, (Tree.takingMethod "put" (Tree.namedType ["Value"])).methodSignature? = some signature ∧
          surface (.ofItems "samples" privateItems) ["wire"] signature = [⟨["super", "wire", "Value"]⟩] :=
  ⟨by decide, _, .inner (.tail _ (.head _)) rfl (.here _), hidden_value, ⟨_, rfl, rfl⟩, _, rfl, rfl⟩

end Import

end TestDouble
