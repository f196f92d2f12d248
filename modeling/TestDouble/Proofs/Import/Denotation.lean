import TestDouble.Import
import TestDouble.Proofs.Catalog.Resolution
import TestDouble.Proofs.Source.Plain
/-!
# What an import denotes

A unit stands directly in the annotated module, so an import of it that begins with `super` is read from
there by what is behind that word. The import computed for a path means what the first name of the path
means in the module that the path starts from.
-/

namespace TestDouble

namespace Catalog

/-- The module of a scope that was collected, seen from a well-formed annotated module. -/
theorem reached_of_collected {module : Tree} {catalog : Catalog} (collected : ofModule module = .ok catalog)
    (apart : catalog.Apart) {path : ModulePath} {scope : Scope} (inline : (path, scope) ∈ catalog.scopes) :
    catalog.Reached path := by
  obtain ⟨name, items, _, rfl⟩ := ofModule_eq_ok collected
  obtain ⟨content, reached, _⟩ := mem_scopes.mp inline
  exact reached_of_inline apart reached

theorem named_of_collected {module : Tree} {catalog : Catalog} (formed : module.wellFormed = true)
    (collected : ofModule module = .ok catalog) : catalog.Named := by
  obtain ⟨name, items, found, rfl⟩ := ofModule_eq_ok collected
  exact named_ofItems (Tree.wellFormed_content found formed)

theorem Reached.take {catalog : Catalog} {path : ModulePath} (reached : catalog.Reached path) (count : Nat) :
    catalog.Reached (path.take count) := by
  induction reached with
  | root =>
      rw [List.take_nil]
      exact .root
  | @step path scope name above found declared ih =>
      by_cases inside : count ≤ path.length
      · rw [List.take_append_of_le_length inside]
        exact ih
      · have whole : (path ++ [name]).length ≤ count := by
          rw [List.length_append, List.length_singleton]
          omega
        rw [List.take_of_length_le whole]
        exact .step above found declared

end Catalog

namespace Import
open Catalog

/-- The import of a name as it is written in a module. -/
def ofName (catalog : Catalog) (module : ModulePath) (name : String) : Option ImportPath :=
  match catalog.resolve module [name] with
  | some (.trait place item) => some (fromRoot 0 place item.name)
  | some (.type place own _) => some (fromRoot 0 place own)
  | some (.module path) => path.getLast?.map fun own => fromRoot 0 path.dropLast own
  | some (.external _ own path) =>
    if isAbsolute path && path.getLast? = some own then some ⟨path⟩ else some (fromRoot 0 module name)
  | none => some (fromRoot 0 module name)

theorem ascend_super (steps : Nat) (module : ModulePath) (escaped : Nat) {name : String}
    (ordinary : name ≠ "super") (further : List String) :
    ascend module escaped (List.replicate steps "super" ++ name :: further) =
      ⟨module.take (module.length - steps), escaped + (steps - module.length), name :: further⟩ := by
  induction steps generalizing module escaped with
  | zero => simp [ascend, ordinary]
  | succ steps ih =>
      rw [List.replicate_succ, List.cons_append, ascend, if_pos rfl]
      cases module using List.reverseRecOn with
      | nil =>
          rw [List.isEmpty_nil, if_pos rfl, ih]
          simp only [List.take_nil, List.length_nil]
          congr 1
          omega
      | append_singleton above last =>
          have inside : (above ++ [last]).isEmpty = false := by simp
          have depth : (above ++ [last]).length - (steps + 1) = above.length - steps := by
            rw [List.length_append, List.length_singleton]
            omega
          have beyond : steps + 1 - (above ++ [last]).length = steps - above.length := by
            rw [List.length_append, List.length_singleton]
            omega
          have kept : (above ++ [last]).take (above.length - steps) = above.take (above.length - steps) :=
            List.take_append_of_le_length (Nat.sub_le _ _)
          rw [inside, if_neg Bool.false_ne_true, List.dropLast_concat, ih, depth, beyond, kept]

/-- The import of what is left of a path once it is followed upwards. -/
def ofAscent (catalog : Catalog) (ascent : Ascent) : Option ImportPath :=
  match ascent.rest with
  | [] => none
  | name :: _ =>
    if 0 < ascent.escaped then some (fromRoot ascent.escaped ascent.module name)
    else ofName catalog ascent.module name

theorem ofPath_self (catalog : Catalog) (module : ModulePath) (rest : List String) :
    ofPath catalog module ("self" :: rest) = ofAscent catalog (ascend module 0 rest) := rfl

theorem ofPath_other (catalog : Catalog) (module : ModulePath) {segments : List String}
    (other : segments.head? ≠ some "self") :
    ofPath catalog module segments = ofAscent catalog (ascend module 0 segments) := by
  unfold ofPath
  split
  · exact absurd rfl other
  · rfl

/-- That what may stand in front of a path is nothing, or the `self` that the path would begin with. -/
def Optional (lead below : List String) : Prop :=
  lead = [] ∧ below.head? ≠ some "self" ∨ lead = ["self"]

theorem exists_optional (segments : List String) : ∃ lead below, segments = lead ++ below ∧ Optional lead below := by
  by_cases own : segments.head? = some "self"
  · obtain ⟨below, rfl⟩ := List.head?_eq_some_iff.mp own
    exact ⟨["self"], below, rfl, .inr rfl⟩
  · exact ⟨[], segments, rfl, .inl ⟨rfl, own⟩⟩

theorem ofPath_optional (catalog : Catalog) (module : ModulePath) {lead below : List String}
    (optional : Optional lead below) :
    ofPath catalog module (lead ++ below) = ofAscent catalog (ascend module 0 below) := by
  rcases optional with ⟨rfl, other⟩ | rfl
  · exact ofPath_other catalog module other
  · exact ofPath_self catalog module below

theorem head?_supers (steps : Nat) {name : String} (ordinary : name ≠ "self") (further : List String) :
    (List.replicate steps "super" ++ name :: further).head? ≠ some "self" := by
  cases steps with
  | zero => simpa using ordinary
  | succ steps => simp [List.replicate_succ]

/-- The import of a path depends on its first name, and on how far above the module it starts. -/
theorem ofPath_climbing (catalog : Catalog) (module : ModulePath) {lead : List String}
    (optional : lead = [] ∨ lead = ["self"]) (steps : Nat) {name : String} (plain : name ∉ Name.anchors)
    (further : List String) :
    ofPath catalog module (lead ++ List.replicate steps "super" ++ name :: further) =
      if module.length < steps then some (fromRoot (steps - module.length) [] name)
      else ofName catalog (module.take (module.length - steps)) name := by
  have notSelf : name ≠ "self" := by rintro rfl; exact plain (by decide)
  have notSuper : name ≠ "super" := by rintro rfl; exact plain (by decide)
  have stripped : ofPath catalog module (lead ++ List.replicate steps "super" ++ name :: further) =
      ofAscent catalog (ascend module 0 (List.replicate steps "super" ++ name :: further)) := by
    rw [List.append_assoc]
    exact ofPath_optional catalog module
      (optional.imp (fun none => ⟨none, head?_supers steps notSelf further⟩) id)
  rw [stripped, ascend_super steps module 0 notSuper further, Nat.zero_add]
  by_cases beyond : module.length < steps
  · have top : module.take (module.length - steps) = [] := by
      rw [Nat.sub_eq_zero_of_le (Nat.le_of_lt beyond), List.take_zero]
    rw [if_pos beyond, top, ofAscent]
    exact if_pos (Nat.sub_pos_of_lt beyond)
  · have inside : ¬0 < steps - module.length := by omega
    rw [if_neg beyond, ofAscent]
    exact if_neg inside

/-! ### The meaning of the import of a name -/

/-- That an import names from the unit what a name means in a module. -/
structure Names (catalog : Catalog) (module : ModulePath) (name : String) (found : ImportPath) : Prop where
  /-- Behind `super` it is read from the annotated module. -/
  inside : ∀ path, found.segments = "super" :: path → catalog.resolve [] path = catalog.resolve module [name]
  /-- Otherwise it repeats an import that means the same everywhere. -/
  outside : found.segments.head? ≠ some "super" →
    (∃ place own, catalog.resolve module [name] = some (.external place own found.segments)) ∧
      ∃ first ∈ WellKnown.standardCrates ++ ["crate"], found.segments.head? = some first

theorem names_fromRoot {catalog : Catalog} {module place : ModulePath} {name own : String}
    (same : catalog.resolve [] (place ++ [own]) = catalog.resolve module [name]) :
    Names catalog module name (fromRoot 0 place own) where
  inside := by
    intro path written
    cases written
    exact same
  outside := by
    intro elsewhere
    exact absurd rfl elsewhere

theorem isAbsolute_head {path : List String} (absolute : isAbsolute path = true) :
    ∃ first ∈ WellKnown.standardCrates ++ ["crate"], path.head? = some first := by
  cases path with
  | nil => cases absolute
  | cons first rest => exact ⟨first, List.contains_iff_mem.mp absolute, rfl⟩

theorem names_absolute {catalog : Catalog} {module place : ModulePath} {name own : String}
    {path : List String} (found : catalog.resolve module [name] = some (.external place own path))
    (absolute : isAbsolute path = true) : Names catalog module name ⟨path⟩ where
  inside := by
    rintro below rfl
    simp [isAbsolute, WellKnown.standardCrates] at absolute
  outside := fun _ => ⟨⟨place, own, found⟩, isAbsolute_head absolute⟩

/-- A declared target is imported by the module that declares it and its own name. -/
theorem ofName_declared {catalog : Catalog} {module place : ModulePath} {name own : String} {target : Target}
    (found : catalog.resolve module [name] = some target)
    (declaration : target.declaration? = some (place, own)) :
    ofName catalog module name = some (fromRoot 0 place own) := by
  unfold ofName
  rw [found]
  cases target with
  | trait above item =>
      cases declaration
      rfl
  | type above own aliased =>
      cases declaration
      rfl
  | module path =>
      obtain ⟨last, ends, same⟩ := Option.map_eq_some_iff.mp declaration
      cases same
      show path.getLast?.map _ = _
      rw [ends]
      rfl
  | external above own path => cases declaration

theorem ofName_unresolved {catalog : Catalog} {module : ModulePath} {name : String}
    (missing : catalog.resolve module [name] = none) :
    ofName catalog module name = some (fromRoot 0 module name) := by
  rw [ofName, missing]

/-- An import from outside is repeated if it means the same everywhere and brings in its own last name. -/
theorem ofName_external {catalog : Catalog} {module place : ModulePath} {name own : String}
    {path : List String} (found : catalog.resolve module [name] = some (.external place own path)) :
    ofName catalog module name =
      if isAbsolute path && path.getLast? = some own then some ⟨path⟩ else some (fromRoot 0 module name) := by
  rw [ofName, found]

theorem ofName_names {catalog : Catalog} (named : catalog.Named) {module : ModulePath}
    (reached : catalog.Reached module) {name : String} (plain : name ∉ Name.anchors) :
    ∃ found, ofName catalog module name = some found ∧ Names catalog module name found := by
  have written : Names catalog module name (fromRoot 0 module name) :=
    names_fromRoot (resolve_written named reached plain)
  cases found : catalog.resolve module [name] with
  | none => exact ⟨_, ofName_unresolved found, written⟩
  | some target =>
      rcases resolve_sound named reached found with ⟨place, own, declaration, above, declares⟩ | ⟨place, own, path, rfl, _⟩
      · have same : catalog.resolve [] (place ++ [own]) = catalog.resolve module [name] := by
          rw [resolve_written named above (declares.plain named), declares.resolve named, found]
        exact ⟨_, ofName_declared found declaration, names_fromRoot same⟩
      · rw [ofName_external found]
        by_cases direct : (isAbsolute path && path.getLast? = some own) = true
        · rw [if_pos direct]
          exact ⟨⟨path⟩, rfl, names_absolute found (Bool.and_eq_true_iff.mp direct).1⟩
        · rw [if_neg direct]
          exact ⟨_, rfl, written⟩

/--
For a path that climbs so many modules and then says `name`, the import denotes what `name` means there. A
path that climbs out of the annotated module is imported with as many steps more.
-/
theorem ofPath_names {module : Tree} {catalog : Catalog} (formed : module.wellFormed = true)
    (collected : Catalog.ofModule module = .ok catalog) (apart : catalog.Apart) {path : ModulePath}
    {scope : Scope} (inline : (path, scope) ∈ catalog.scopes) {lead : List String}
    (optional : lead = [] ∨ lead = ["self"]) (steps : Nat) {name : String} (plain : name ∉ Name.anchors)
    (further : List String) :
    ∃ found, ofPath catalog path (lead ++ List.replicate steps "super" ++ name :: further) = some found ∧
      (steps ≤ path.length → Names catalog (path.take (path.length - steps)) name found) ∧
      (path.length < steps →
        found.segments = List.replicate (steps - path.length + 1) "super" ++ [name]) := by
  have named := named_of_collected formed collected
  have start := (reached_of_collected collected apart inline).take (path.length - steps)
  rw [ofPath_climbing catalog path optional steps plain further]
  by_cases beyond : path.length < steps
  · rw [if_pos beyond]
    refine ⟨_, rfl, fun inside => absurd beyond (Nat.not_lt.mpr inside), fun _ => ?_⟩
    rw [fromRoot, List.append_nil]
  · rw [if_neg beyond]
    obtain ⟨found, computed, names⟩ := ofName_names named start plain
    exact ⟨found, computed, fun _ => names, fun escaped => absurd escaped beyond⟩

/-- A module with a trait, and one that imports it under another name. -/
def renamedItems : List Tree :=
  [Tree.inlineModule "model" [Tree.plainTrait "Item" []],
    Tree.inlineModule "inner" [Tree.renamingImport ["super", "model"] "Item" "Thing"]]

theorem ofPath_names_renamed :
    ∃ found, ofPath (.ofItems "samples" renamedItems) ["inner"] ["self", "Thing", "Part"] = some found ∧
      Names (.ofItems "samples" renamedItems) ["inner"] "Thing" found := by
  have formed : (Tree.inlineModule "samples" renamedItems).wellFormed = true := by decide
  have apart : (Catalog.ofItems "samples" renamedItems).Apart := by decide
  have inner : (["inner"], Scope.ofItems _) ∈ (Catalog.ofItems "samples" renamedItems).scopes :=
    .tail _ (.head _)
  obtain ⟨found, computed, names, _⟩ :=
    ofPath_names formed rfl apart inner (.inr rfl) 0 (by decide : "Thing" ∉ Name.anchors) ["Part"]
  exact ⟨found, computed, names (Nat.zero_le _)⟩

end Import

end TestDouble
