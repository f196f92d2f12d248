import TestDouble.Proofs.Catalog.Missing
import TestDouble.Proofs.Catalog.Rearrangement
/-!
# One import more

A module that imports one item more brings in one name more, and nothing else changes in the annotated module. Where
this name leads outside, every path that resolved to nothing still does, or it is led to the new import.
-/

namespace TestDouble

/-- That items hold one item more than others, in the module at a path. -/
inductive Enlarged (added : Tree) : ModulePath → List Tree → List Tree → Prop where
  | here (before after : List Tree) : Enlarged added [] (before ++ after) (before ++ added :: after)
  | inner (attributes visibility unsafety word : Tree) (name : String) (inner : Tree) (before after : List Tree)
      {path : ModulePath} {content larger : List Tree} (below : Enlarged added path content larger) :
      Enlarged added (name :: path)
        (before ++ Tree.moduleItem attributes visibility unsafety word name inner content :: after)
        (before ++ Tree.moduleItem attributes visibility unsafety word name inner larger :: after)

namespace Scope

/-- That a scope brings in one name more than another one, and is no different otherwise. -/
structure Brings (own : String) (path : List String) (scope larger : Scope) : Prop where
  traits : larger.traits = scope.traits
  types : larger.types = scope.types
  modules : larger.modules = scope.modules
  globs : larger.globs = scope.globs
  bound : larger.imports.lookup own = some path
  others : ∀ name, name ≠ own → larger.imports.lookup name = scope.imports.lookup name

theorem brings_ofItems {added : Tree} {own : String} {path : List String} (binds : added.bindings = [.named own path])
    {before after : List Tree} (unbound : (ofItems (before ++ after)).imports.lookup own = none) :
    (ofItems (before ++ after)).Brings own path (ofItems (before ++ added :: after)) := by
  obtain ⟨attributes, visibility, word, lead, tree, stop, rfl⟩ : ∃ attributes visibility word lead tree stop,
      added = .node .itemUse [attributes, visibility, word, lead, tree, stop] := by
    unfold Tree.bindings at binds
    split at binds
    · exact ⟨_, _, _, _, _, _, rfl⟩
    · cases binds
  have imports :
      (ofItems (before ++ .node .itemUse [attributes, visibility, word, lead, tree, stop] :: after)).imports =
        (importsOf after).reverse ++ (own, path) :: (importsOf before).reverse := by
    rw [ofItems_imports, importsOf, List.flatMap_append, List.flatMap_cons, binds]
    simp [importsOf, Binding.entry?]
  have fewer : (ofItems (before ++ after)).imports = (importsOf after).reverse ++ (importsOf before).reverse := by
    rw [ofItems_imports, importsOf, List.flatMap_append, List.reverse_append]
    rfl
  rw [fewer, List.lookup_append, Option.or_eq_none_iff] at unbound
  constructor
  · rw [ofItems_traits, ofItems_traits, traitsOf, traitsOf, List.flatMap_append, List.flatMap_append,
      List.flatMap_cons]
    rfl
  · rw [ofItems_types, ofItems_types, typesOf, typesOf, List.flatMap_append, List.flatMap_append, List.flatMap_cons]
    rfl
  · rw [ofItems_modules, ofItems_modules, List.filterMap_append, List.filterMap_append, List.filterMap_cons]
    rfl
  · rw [ofItems_globs, ofItems_globs, globsOf, globsOf, List.flatMap_append, List.flatMap_append, List.flatMap_cons,
      binds]
    rfl
  · rw [imports, List.lookup_append, unbound.1, Option.none_or, List.lookup_cons_self]
  · intro name other
    have different : (name == own) = false := beq_false_of_ne other
    rw [imports, fewer, List.lookup_append, List.lookup_append, List.lookup_cons, different]

/-- That a scope is no different from another one but for names that it may bind. -/
structure Near (binds : String → List String → Prop) (scope larger : Scope) : Prop where
  traits : larger.traits = scope.traits
  types : larger.types = scope.types
  modules : larger.modules = scope.modules
  globs : larger.globs = scope.globs
  imports : ∀ name, larger.imports.lookup name = scope.imports.lookup name ∨
    ∃ path, larger.imports.lookup name = some path ∧ binds name path

theorem Near.refl (binds : String → List String → Prop) (scope : Scope) : Near binds scope scope :=
  ⟨rfl, rfl, rfl, rfl, fun _ => .inl rfl⟩

end Scope

namespace Catalog

/-- That a catalog has one import more than another one, in the scope of one module. -/
structure Brings (catalog : Catalog) (place : ModulePath) (own : String) (path : List String) (larger : Catalog) :
    Prop where
  elsewhere : ∀ module, module ≠ place → larger.scope? module = catalog.scope? module
  here : ∃ scope more, catalog.scope? place = some scope ∧ larger.scope? place = some more ∧
    scope.Brings own path more

/-! ### The catalog of one item more -/

/-- An item that is no module only changes the scope of the module that holds it. -/
theorem scopesWith_enlarged {added : Tree} (noModule : added.asModule? = none) {path : ModulePath}
    {items larger : List Tree} (enlarged : Enlarged added path items larger) (base : ModulePath) :
    ∃ front back before after,
      scopesWith base items = front ++ (base ++ path, Scope.ofItems (before ++ after)) :: back ∧
      scopesWith base larger = front ++ (base ++ path, Scope.ofItems (before ++ added :: after)) :: back := by
  induction enlarged generalizing base with
  | here before after =>
      have nothing : scopesOf base added = [] := by rw [scopesOf_eq, noModule]
      refine ⟨scopesBelow base (before ++ after), [], before, after, ?_, ?_⟩
      · rw [List.append_nil]
        rfl
      · rw [List.append_nil, scopesWith, scopesBelow_eq_flatMap, scopesBelow_eq_flatMap, List.flatMap_append,
          List.flatMap_append, List.flatMap_cons, nothing, List.nil_append]
  | @inner attributes visibility unsafety word name inner before after path content larger _ ih =>
      obtain ⟨front, back, first, last, fewer, more⟩ := ih (base ++ [name])
      obtain ⟨rest, scopes⟩ : ∃ rest, ∀ held,
          scopesWith base (before ++ Tree.moduleItem attributes visibility unsafety word name inner held :: after) =
            scopesBelow base before ++ scopesWith (base ++ [name]) held ++ rest := by
        refine ⟨scopesBelow base after ++ [(base, Scope.ofItems
          (before ++ Tree.moduleItem attributes visibility unsafety word name inner [] :: after))], fun held => ?_⟩
        have same :
            Scope.ofItems (before ++ Tree.moduleItem attributes visibility unsafety word name inner held :: after) =
              Scope.ofItems (before ++ Tree.moduleItem attributes visibility unsafety word name inner [] :: after) := by
          rw [Scope.ofItems, Scope.ofItems, List.foldl_append, List.foldl_append]
          rfl
        rw [scopesWith, same, scopesBelow_eq_flatMap, scopesBelow_eq_flatMap, scopesBelow_eq_flatMap,
          List.flatMap_append, List.flatMap_cons]
        simp only [List.append_assoc]
        rfl
      refine ⟨scopesBelow base before ++ front, back ++ rest, first, last, ?_, ?_⟩
      · rw [scopes, fewer]
        simp
      · rw [scopes, more]
        simp

theorem scope?_of_mem {root : String} {items : List Tree} (apart : (ofItems root items).Apart) {path : ModulePath}
    {scope : Scope} (member : (path, scope) ∈ (ofItems root items).scopes) :
    (ofItems root items).scope? path = some scope := by
  obtain ⟨content, reached, rfl⟩ := mem_scopes.mp member
  exact scope?_of_inline apart reached

theorem brings_ofItems (root : String) {added : Tree} {own : String} {path : List String}
    (binds : added.bindings = [.named own path]) {place : ModulePath} {items larger : List Tree}
    (enlarged : Enlarged added place items larger) (apart : (ofItems root items).Apart)
    (unbound : ∀ scope, (ofItems root items).scope? place = some scope → scope.imports.lookup own = none) :
    (ofItems root items).Brings place own path (ofItems root larger) := by
  have noModule : added.asModule? = none := by
    unfold Tree.bindings at binds
    split at binds
    · rfl
    · cases binds
  obtain ⟨front, back, before, after, fewer, more⟩ := scopesWith_enlarged noModule enlarged []
  replace fewer : (ofItems root items).scopes = front ++ (place, Scope.ofItems (before ++ after)) :: back := fewer
  replace more : (ofItems root larger).scopes =
      front ++ (place, Scope.ofItems (before ++ added :: after)) :: back := more
  have found : (ofItems root items).scope? place = some (Scope.ofItems (before ++ after)) :=
    scope?_of_mem apart (by rw [fewer]; simp)
  have brings := Scope.brings_ofItems binds (unbound _ found)
  have stillApart : (ofItems root larger).Apart := by
    intro entry member
    rw [more, List.mem_append, List.mem_cons] at member
    rcases member with inside | rfl | inside
    · exact apart entry (by rw [fewer]; simp [inside])
    · have distinct := apart (place, Scope.ofItems (before ++ after)) (by rw [fewer]; simp)
      rw [← brings.modules] at distinct
      exact distinct
    · exact apart entry (by rw [fewer]; simp [inside])
  refine ⟨fun module other => ?_, _, _, found, scope?_of_mem stillApart (by rw [more]; simp), brings⟩
  have different : (module == place) = false := beq_false_of_ne other
  rw [scope?, scope?, fewer, more, List.reverse_append, List.reverse_append, List.reverse_cons, List.reverse_cons]
  simp only [List.lookup_append, List.lookup_cons, different, List.lookup_nil]

/-! ### Resolving with one import more -/

namespace Brings

variable {catalog larger : Catalog} {place : ModulePath} {own : String} {path : List String}

/-- Every module has the same scope, but for the import in one of them. -/
theorem scopes (brings : catalog.Brings place own path larger) (module : ModulePath) :
    (catalog.scope? module = none ∧ larger.scope? module = none) ∨
      ∃ scope more, catalog.scope? module = some scope ∧ larger.scope? module = some more ∧
        scope.Near (fun name other => module = place ∧ name = own ∧ other = path) more := by
  by_cases same : module = place
  · subst same
    obtain ⟨scope, more, fewer, found, adds⟩ := brings.here
    refine .inr ⟨scope, more, fewer, found, adds.traits, adds.types, adds.modules, adds.globs, fun name => ?_⟩
    by_cases added : name = own
    · exact .inr ⟨path, added ▸ adds.bound, rfl, added, rfl⟩
    · exact .inl (adds.others name added)
  · rw [brings.elsewhere module same]
    cases found : catalog.scope? module with
    | none => exact .inl ⟨rfl, rfl⟩
    | some scope => exact .inr ⟨scope, scope, rfl, rfl, .refl _ scope⟩

theorem walk_eq (brings : catalog.Brings place own path larger) (current : ModulePath) (segments : List String) :
    larger.walk current segments = catalog.walk current segments := by
  induction segments generalizing current with
  | nil => rfl
  | cons first rest ih =>
      cases rest with
      | nil => rfl
      | cons second further =>
          rw [walk_step, walk_step]
          rcases brings.scopes current with ⟨fewer, found⟩ | ⟨scope, more, fewer, found, near⟩
          · rw [fewer, found]
            rfl
          · rw [fewer, found, Option.bind_some, Option.bind_some, near.modules, ih]

/-- What the imports of a scope lead nowhere with, those of a near one lead nowhere with, or to the name it binds. -/
theorem imported_near {resolve wider : List String → Option Target} {module : ModulePath} {scope more : Scope}
    (near : scope.Near (fun name other => module = place ∧ name = own ∧ other = path) more)
    (outside : module = place → ∀ rest, resolve (path ++ rest) = none)
    (below : ∀ segments, resolve segments = none → ∀ target ∈ wider segments, target = .external place own path)
    {segments : List String} (missing : imported resolve module scope segments = none) :
    ∀ target ∈ imported wider module more segments, target = .external place own path := by
  cases segments with
  | nil => nofun
  | cons first rest =>
      obtain ⟨unbound, nowhere⟩ := imported_eq_none.mp missing
      intro target found
      rw [Option.mem_def, imported] at found
      rcases near.imports first with same | ⟨_, bound, rfl, rfl, rfl⟩
      · rw [same, unbound, near.globs] at found
        obtain ⟨glob, member, led⟩ := List.exists_of_findSome?_eq_some found
        exact below _ (nowhere glob member) target led
      · rw [bound] at found
        rcases Option.or_eq_some_iff.mp found with led | ⟨_, itself⟩
        · exact below _ (outside rfl rest) target led
        · exact (Option.some.inj itself).symm

/-- Where nothing was found there still is nothing, or the new import. -/
theorem landing (brings : catalog.Brings place own path larger) {fuel : Nat}
    (outside : ∀ rest, catalog.resolveWithin fuel place (path ++ rest) = none)
    (below : ∀ module segments, catalog.resolveWithin fuel module segments = none →
      ∀ target ∈ larger.resolveWithin fuel module segments, target = .external place own path)
    {walk : Walk} (missing : catalog.landing fuel walk = none) :
    ∀ target ∈ larger.landing fuel walk, target = .external place own path := by
  have beyond (current : ModulePath) (here : current = place) (rest : List String) :
      catalog.resolveWithin fuel current (path ++ rest) = none := here ▸ outside rest
  cases walk with
  | arrived current name =>
      rw [Catalog.landing] at missing ⊢
      rcases brings.scopes current with ⟨_, found⟩ | ⟨scope, more, fewer, found, near⟩
      · rw [found]
        exact fun target inside => absurd inside (Option.not_mem_none target)
      · rw [fewer, Option.bind_some, Option.or_eq_none_iff] at missing
        have undeclared : declaredIn current more name = none := by
          rw [declaredIn, near.traits, near.types, near.modules]
          exact missing.1
        rw [found, Option.bind_some, undeclared, Option.none_or]
        exact imported_near near (beyond current) (below current) missing.2
  | blocked current left =>
      rw [Catalog.landing] at missing ⊢
      rcases brings.scopes current with ⟨_, found⟩ | ⟨scope, more, fewer, found, near⟩
      · rw [found]
        exact fun target inside => absurd inside (Option.not_mem_none target)
      · rw [fewer, Option.bind_some] at missing
        rw [found, Option.bind_some]
        exact imported_near near (beyond current) (below current) missing

/-- A path that resolved to nothing still does, or it leads to the new import, if this one leads outside. -/
theorem resolveWithin (brings : catalog.Brings place own path larger) {fuel : Nat}
    (outside : ∀ less ≤ fuel, ∀ rest, catalog.resolveWithin less place (path ++ rest) = none) {module : ModulePath}
    {segments : List String} (missing : catalog.resolveWithin fuel module segments = none) :
    ∀ target ∈ larger.resolveWithin fuel module segments, target = .external place own path := by
  induction fuel generalizing module segments with
  | zero => nofun
  | succ fuel ih =>
      have below (module : ModulePath) (segments : List String)
          (missing : catalog.resolveWithin fuel module segments = none) :=
        ih (fun less fewer => outside less (Nat.le_succ_of_le fewer)) missing
      rw [resolveWithin_succ] at missing ⊢
      cases normal : normalize module segments with
      | none => nofun
      | some begun =>
          rw [normal, Option.bind_some] at missing
          rw [Option.bind_some, brings.walk_eq]
          cases walked : catalog.walk begun.1 begun.2 with
          | none => nofun
          | some walk =>
              rw [walked, Option.bind_some] at missing
              rw [Option.bind_some]
              exact brings.landing (outside fuel (Nat.le_succ fuel)) below missing

/-- A path that begins with the new name leads to the new import, if this one leads outside. -/
theorem resolve_own (brings : catalog.Brings place own path larger)
    (outside : ∀ fuel ≤ maxImports, ∀ rest, catalog.resolveWithin fuel place (path ++ rest) = none)
    (undeclared : ∀ scope, catalog.scope? place = some scope → declaredIn place scope own = none)
    (plain : own ∉ Name.anchors) (rest : List String) :
    larger.resolve place (own :: rest) = some (.external place own path) := by
  obtain ⟨scope, more, fewer, found, adds⟩ := brings.here
  have free : declaredIn place more own = none := by
    rw [declaredIn, adds.traits, adds.types, adds.modules]
    exact undeclared scope fewer
  have through : imported (larger.resolveWithin 16 place) place more (own :: rest) =
      some (.external place own path) := by
    rw [imported, adds.bound]
    have led := brings.resolveWithin (fun less fewer => outside less (Nat.le_succ_of_le fewer))
      (outside 16 (by decide) rest)
    dsimp only
    cases inside : larger.resolveWithin 16 place (path ++ rest) with
    | none => rfl
    | some target => rw [led target inside, Option.some_or]
  cases rest with
  | nil =>
      have arrived : larger.walk place [own] = some (.arrived place own) := rfl
      rw [resolve, maxImports, resolveWithin_arrived (normalize_plain plain) arrived, found, Option.bind_some, free,
        Option.none_or, through]
  | cons second further =>
      have blocked : larger.walk place (own :: second :: further) =
          some (.blocked place (own :: second :: further)) := by
        rw [walk_step, found, Option.bind_some, undeclared_module free]
        rfl
      rw [resolve, maxImports, resolveWithin_blocked (normalize_plain plain) blocked, found, Option.bind_some, through]

end Brings

end Catalog

end TestDouble
