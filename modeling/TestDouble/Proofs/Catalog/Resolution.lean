import TestDouble.Proofs.Catalog.Inline
/-!
# Resolving from the annotated module

A module is `Reached` when every module on the way down to it declares the next one. From the annotated
module such a module is found by writing the names on the way, so a name of it means the same written in
full from there. Resolving never leaves these modules, and whatever declared item it finds is the one that
the item's own name stands for in the module that declares it.
-/

namespace TestDouble

namespace Catalog

variable {catalog : Catalog}

/-- A module to which declared modules lead down from the annotated one. -/
inductive Reached (catalog : Catalog) : ModulePath → Prop where
  | root : Reached catalog []
  | step {path : ModulePath} {scope : Scope} {name : String} (above : Reached catalog path)
      (found : catalog.scope? path = some scope) (declared : name ∈ scope.modules) :
      Reached catalog (path ++ [name])

/-- Every scope that can be looked up is named well. -/
def Named (catalog : Catalog) : Prop :=
  ∀ path scope, catalog.scope? path = some scope → scope.Named

theorem named_ofItems {root : String} {items : List Tree} (formed : ∀ item ∈ items, item.wellFormed = true) :
    (ofItems root items).Named := by
  intro path scope found
  obtain ⟨content, reached, rfl⟩ := inline_of_scope? found
  exact Scope.named_ofItems (reached.wellFormed formed)

theorem reached_of_inline {root : String} {items : List Tree} (apart : (ofItems root items).Apart)
    {path : ModulePath} {content : List Tree} (inline : Inline items path content) :
    (ofItems root items).Reached path := by
  induction path using List.reverseRecOn generalizing content with
  | nil => exact .root
  | append_singleton above name ih =>
      obtain ⟨outer, outerAt, item, member, module⟩ := inline.unsnoc
      have declared : name ∈ (Scope.ofItems outer).modules :=
        Scope.mem_ofItems_modules.mpr ⟨item, member, Tree.moduleName?_of_asModule? module⟩
      exact .step (ih outerAt) (scope?_of_inline apart outerAt) declared

theorem walk_step (catalog : Catalog) (current : ModulePath) (first second : String) (rest : List String) :
    catalog.walk current (first :: second :: rest) = (catalog.scope? current).bind fun scope =>
      if scope.modules.contains first then catalog.walk (current ++ [first]) (second :: rest)
      else some (.blocked current (first :: second :: rest)) := rfl

namespace Reached

theorem dropLast {path : ModulePath} (reached : catalog.Reached path) : catalog.Reached path.dropLast := by
  cases reached with
  | root => exact .root
  | step above _ _ =>
      rw [List.dropLast_concat]
      exact above

theorem plain (named : catalog.Named) {path : ModulePath} (reached : catalog.Reached path) :
    ∀ name ∈ path, name ∉ Name.anchors := by
  induction reached with
  | root => intro name member; cases member
  | step _ found declared ih =>
      intro name member
      rcases List.mem_append.mp member with earlier | last
      · exact ih name earlier
      · rw [List.mem_singleton.mp last]
        exact (named _ _ found).modules _ declared

/-- The walk from the annotated module to a reached one only leaves the names behind. -/
theorem walk {path : ModulePath} (reached : catalog.Reached path) {rest : List String} (more : rest ≠ []) :
    catalog.walk [] (path ++ rest) = catalog.walk path rest := by
  induction reached generalizing rest with
  | root => rfl
  | @step path scope name _ found declared ih =>
      cases rest with
      | nil => exact absurd rfl more
      | cons first rest =>
          have step : catalog.walk path (name :: first :: rest) =
              catalog.walk (path ++ [name]) (first :: rest) := by
            have contained : scope.modules.contains name = true := List.contains_iff_mem.mpr declared
            rw [walk_step, found, Option.bind_some, if_pos contained]
          rw [List.append_assoc, List.singleton_append, ih (List.cons_ne_nil _ _), step]

end Reached

/-! ### A name written in full -/

theorem normalize_plain {module : ModulePath} {first : String} {rest : List String}
    (plain : first ∉ Name.anchors) : normalize module (first :: rest) = some (module, first :: rest) := by
  simp only [Name.anchors, List.mem_cons, List.not_mem_nil, or_false, not_or] at plain
  obtain ⟨notSelf, notSuper, notCrate⟩ := plain
  unfold normalize
  split
  · rename_i same
    exact absurd (List.cons.inj same).1 notSelf
  · rename_i same
    exact absurd (List.cons.inj same).1 notCrate
  · rw [climb, if_neg notSuper]
    rfl

theorem resolveWithin_arrived {module start current : ModulePath} {segments rest : List String} {name : String}
    (normal : normalize module segments = some (start, rest))
    (arrived : catalog.walk start rest = some (.arrived current name)) (fuel : Nat) :
    catalog.resolveWithin (fuel + 1) module segments =
      (catalog.scope? current).bind fun scope =>
        (declaredIn current scope name).or
          (imported (catalog.resolveWithin fuel current) current scope [name]) := by
  rw [resolveWithin, normal, Option.bind_some]
  show (catalog.walk start rest).bind _ = _
  rw [arrived]
  rfl

theorem resolveWithin_blocked {module start current : ModulePath} {segments rest left : List String}
    (normal : normalize module segments = some (start, rest))
    (blocked : catalog.walk start rest = some (.blocked current left)) (fuel : Nat) :
    catalog.resolveWithin (fuel + 1) module segments =
      (catalog.scope? current).bind fun scope =>
        imported (catalog.resolveWithin fuel current) current scope left := by
  rw [resolveWithin, normal, Option.bind_some]
  show (catalog.walk start rest).bind _ = _
  rw [blocked]
  rfl

/-- From the annotated module, a name of a reached module is written behind the path of the module. -/
theorem resolve_written (named : catalog.Named) {path : ModulePath} (reached : catalog.Reached path)
    {name : String} (plain : name ∉ Name.anchors) :
    catalog.resolve [] (path ++ [name]) = catalog.resolve path [name] := by
  have written : normalize [] (path ++ [name]) = some ([], path ++ [name]) := by
    cases path with
    | nil => exact normalize_plain plain
    | cons first rest => exact normalize_plain (reached.plain named first List.mem_cons_self)
  have arrived : catalog.walk path [name] = some (.arrived path name) := rfl
  have descent : catalog.walk [] (path ++ [name]) = some (.arrived path name) :=
    reached.walk (List.cons_ne_nil _ _)
  unfold resolve maxImports
  rw [resolveWithin_arrived written descent, resolveWithin_arrived (normalize_plain plain) arrived]

/-! ### What resolving finds -/

theorem mem_of_lookup {α : Type} {key : String} {value : α} {entries : List (String × α)}
    (found : entries.lookup key = some value) : (key, value) ∈ entries := by
  obtain ⟨before, after, rfl, -⟩ := List.lookup_eq_some_iff.mp found
  exact List.mem_append_right _ List.mem_cons_self

/-- That a target is what a name stands for in a module that declares it. -/
def Declares (catalog : Catalog) (module : ModulePath) (name : String) (target : Target) : Prop :=
  ∃ scope, catalog.scope? module = some scope ∧ declaredIn module scope name = some target

/-- A name stands for a trait, a type or a module that a scope declares under it. -/
theorem declaredIn_cases {module : ModulePath} {scope : Scope} {name : String} {target : Target}
    (declared : declaredIn module scope name = some target) :
    (∃ item, (name, item) ∈ scope.traits ∧ target = .trait module item) ∨
      (∃ aliased, (name, aliased) ∈ scope.types ∧ target = .type module name aliased) ∨
        name ∈ scope.modules ∧ target = .module (module ++ [name]) := by
  unfold declaredIn at declared
  split at declared
  · rename_i item found
    exact .inl ⟨item, mem_of_lookup found, (Option.some.inj declared).symm⟩
  · split at declared
    · rename_i aliased found
      exact .inr (.inl ⟨aliased, mem_of_lookup found, (Option.some.inj declared).symm⟩)
    · split at declared
      · rename_i contained
        exact .inr (.inr ⟨List.contains_iff_mem.mp contained, (Option.some.inj declared).symm⟩)
      · cases declared

theorem declaredIn_eq_none_iff {module : ModulePath} {scope : Scope} {name : String} :
    declaredIn module scope name = none ↔
      scope.traits.lookup name = none ∧ scope.types.lookup name = none ∧ name ∉ scope.modules := by
  unfold declaredIn
  cases scope.traits.lookup name with
  | some item => simp
  | none =>
      cases scope.types.lookup name with
      | some aliased => simp
      | none => simp

theorem declaredIn_plain {module : ModulePath} {scope : Scope} (named : scope.Named) {name : String}
    {target : Target} (declared : declaredIn module scope name = some target) : name ∉ Name.anchors := by
  rcases declaredIn_cases declared with ⟨item, entered, -⟩ | ⟨aliased, entered, -⟩ | ⟨entered, -⟩
  · exact (named.traits _ entered).2
  · exact named.types _ entered
  · exact named.modules _ entered

namespace Declares

theorem plain (named : catalog.Named) {module : ModulePath} {name : String} {target : Target}
    (declares : catalog.Declares module name target) : name ∉ Name.anchors := by
  obtain ⟨scope, found, declared⟩ := declares
  exact declaredIn_plain (named _ _ found) declared

/-- A declared name resolves to its target in the module that declares it. -/
theorem resolve (named : catalog.Named) {module : ModulePath} {name : String} {target : Target}
    (declares : catalog.Declares module name target) : catalog.resolve module [name] = some target := by
  have plain := declares.plain named
  obtain ⟨scope, found, declared⟩ := declares
  have arrived : catalog.walk module [name] = some (.arrived module name) := rfl
  unfold Catalog.resolve maxImports
  rw [resolveWithin_arrived (normalize_plain plain) arrived, found, Option.bind_some, declared]
  rfl

end Declares

end Catalog

/-- The module and the name under which a target is declared; an import from outside has none. -/
def Target.declaration? : Target → Option (ModulePath × String)
  | .trait place item => some (place, item.name)
  | .type place name _ => some (place, name)
  | .module path => path.getLast?.map fun own => (path.dropLast, own)
  | .external .. => none

namespace Catalog

variable {catalog : Catalog}

theorem declaredIn_declaration {module : ModulePath} {scope : Scope} (named : scope.Named) {name : String}
    {target : Target} (declared : declaredIn module scope name = some target) :
    target.declaration? = some (module, name) := by
  rcases declaredIn_cases declared with ⟨item, entered, rfl⟩ | ⟨aliased, entered, rfl⟩ | ⟨entered, rfl⟩
  · exact congrArg (fun own => some (module, own)) (named.traits _ entered).1
  · rfl
  · simp [Target.declaration?]

/-- A property of modules that passes on to the module above and to the modules declared in one. -/
structure Closed (catalog : Catalog) (among : ModulePath → Prop) : Prop where
  above : ∀ path, among path → among path.dropLast
  below : ∀ path scope name, among path → catalog.scope? path = some scope → name ∈ scope.modules →
    among (path ++ [name])

theorem Reached.closed : catalog.Closed catalog.Reached :=
  ⟨fun _ reached => reached.dropLast, fun _ _ _ reached found declared => reached.step found declared⟩

theorem closed_all : catalog.Closed fun _ => True :=
  ⟨fun _ _ => trivial, fun _ _ _ _ _ _ => trivial⟩

/--
What is true of every target that resolving from some modules finds: it is declared in one of them under
its own name, or it is an import of one of them that leads outside.
-/
def Sound (catalog : Catalog) (among : ModulePath → Prop) (target : Target) : Prop :=
  (∃ module name, target.declaration? = some (module, name) ∧ among module ∧
      catalog.Declares module name target) ∨
    ∃ module name path, target = .external module name path ∧ among module

variable {among : ModulePath → Prop}

theorem climb_closed (closed : catalog.Closed among) {current start : ModulePath} {segments rest : List String}
    (inside : among current) (climbed : climb current segments = some (start, rest)) : among start := by
  induction segments generalizing current with
  | nil =>
      cases climbed
      exact inside
  | cons first more ih =>
      rw [climb] at climbed
      split at climbed
      · split at climbed
        · cases climbed
        · exact ih (closed.above _ inside) climbed
      · cases climbed
        exact inside

theorem normalize_closed (closed : catalog.Closed among) {module start : ModulePath}
    {segments rest : List String} (inside : among module)
    (normal : normalize module segments = some (start, rest)) : among start := by
  unfold normalize at normal
  have inner := (Option.filter_eq_some_iff.mp normal).1
  split at inner
  · cases inner
    exact inside
  · cases inner
  · exact climb_closed closed inside inner

def Walk.module : Walk → ModulePath
  | .arrived module _ => module
  | .blocked module _ => module

theorem walk_closed (closed : catalog.Closed among) {current : ModulePath} {segments : List String} {walk : Walk}
    (inside : among current) (walked : catalog.walk current segments = some walk) : among walk.module := by
  induction segments generalizing current with
  | nil => cases walked
  | cons first more ih =>
      cases more with
      | nil =>
          cases walked
          exact inside
      | cons second rest =>
          rw [walk_step] at walked
          obtain ⟨scope, found, step⟩ := Option.bind_eq_some_iff.mp walked
          split at step
          · rename_i contained
            exact ih (closed.below _ _ _ inside found (List.contains_iff_mem.mp contained)) step
          · cases step
            exact inside

theorem found_imported {found : Target → Prop} {resolve : List String → Option Target} {module : ModulePath} {scope : Scope}
    {segments : List String} {target : Target}
    (external : ∀ name path, scope.imports.lookup name = some path → found (.external module name path))
    (below : ∀ path inner, resolve path = some inner → found inner)
    (led : imported resolve module scope segments = some target) : found target := by
  cases segments with
  | nil => cases led
  | cons first rest =>
      rw [imported] at led
      split at led
      · rename_i path bound
        rcases Option.or_eq_some_iff.mp led with inner | ⟨_, own⟩
        · exact below _ _ inner
        · cases own
          exact external first path bound
      · obtain ⟨glob, _, inner⟩ := List.exists_of_findSome?_eq_some led
        exact below _ _ inner

/--
What holds of every name that one of the modules declares, and of every import of them that leads outside,
holds of whatever resolving from one of the modules finds, however many imports are followed.
-/
theorem resolveWithin_found (found : Target → Prop) (closed : catalog.Closed among)
    (declared : ∀ module scope name target, among module → catalog.scope? module = some scope →
      declaredIn module scope name = some target → found target)
    (external : ∀ module scope name path, among module → catalog.scope? module = some scope →
      scope.imports.lookup name = some path → found (.external module name path))
    {fuel : Nat} {module : ModulePath} {segments : List String} {target : Target} (inside : among module)
    (resolved : catalog.resolveWithin fuel module segments = some target) : found target := by
  induction fuel generalizing module segments target with
  | zero => cases resolved
  | succ fuel ih =>
      rw [resolveWithin] at resolved
      obtain ⟨⟨start, rest⟩, normal, after⟩ := Option.bind_eq_some_iff.mp resolved
      obtain ⟨walk, walked, arrival⟩ := Option.bind_eq_some_iff.mp after
      have current := walk_closed closed (normalize_closed closed inside normal) walked
      have below : ∀ path inner, catalog.resolveWithin fuel walk.module path = some inner → found inner :=
        fun path inner resolved => ih current resolved
      cases walk with
      | arrived place name =>
          obtain ⟨scope, scopeFound, chosen⟩ := Option.bind_eq_some_iff.mp arrival
          rcases Option.or_eq_some_iff.mp chosen with own | ⟨_, led⟩
          · exact declared place scope name target current scopeFound own
          · exact found_imported (fun name path => external place scope name path current scopeFound) below led
      | blocked place left =>
          obtain ⟨scope, scopeFound, led⟩ := Option.bind_eq_some_iff.mp arrival
          exact found_imported (fun name path => external place scope name path current scopeFound) below led

/-- Resolving from one of the modules finds sound targets only, however many imports are followed. -/
theorem resolveWithin_sound (named : catalog.Named) (closed : catalog.Closed among) {fuel : Nat}
    {module : ModulePath} {segments : List String} {target : Target} (inside : among module)
    (found : catalog.resolveWithin fuel module segments = some target) : catalog.Sound among target := by
  refine resolveWithin_found (catalog.Sound among) closed ?_ ?_ inside found
  · intro module scope name target inside scopeFound declared
    exact .inl ⟨module, name, declaredIn_declaration (named _ _ scopeFound) declared, inside, scope, scopeFound,
      declared⟩
  · intro module scope name path inside _ _
    exact .inr ⟨module, name, path, rfl, inside⟩

theorem resolve_sound (named : catalog.Named) {module : ModulePath} {segments : List String}
    {target : Target} (reached : catalog.Reached module)
    (found : catalog.resolve module segments = some target) : catalog.Sound catalog.Reached target :=
  resolveWithin_sound named Reached.closed reached found

/-- A trait that a path resolves to is declared under its own name in the module it comes with. -/
theorem declares_of_resolve (named : catalog.Named) {module place : ModulePath} {segments : List String}
    {item : TraitItem} (found : catalog.resolve module segments = some (.trait place item)) :
    catalog.Declares place item.name (.trait place item) := by
  rcases resolveWithin_sound named closed_all trivial found with ⟨_, _, own, _, declares⟩ | ⟨_, _, _, other, _⟩
  · cases own
    exact declares
  · cases other

end Catalog

end TestDouble
