import TestDouble.Proofs.Catalog.Resolution
/-!
# Names that nothing stands for

If a path resolves to nothing then so does every longer path, and fewer imports do not help: a name in the middle of a
path has to be a module or an import, and both would be found as the last name too.
-/

namespace TestDouble

namespace Catalog

variable {catalog : Catalog} {name : String}

/-! ### Where a longer path leads -/

theorem climb_behind (ordinary : name ≠ "super") (current : ModulePath) (before : List String) :
    (∃ start left, ∀ more, climb current (before ++ name :: more) = some (start, left ++ name :: more)) ∨
      ∀ more, climb current (before ++ name :: more) = none := by
  induction before generalizing current with
  | nil =>
      refine .inl ⟨current, [], fun more => ?_⟩
      rw [List.nil_append, climb, if_neg ordinary]
  | cons first rest ih =>
      by_cases up : first = "super"
      · subst up
        cases top : current.isEmpty with
        | true => exact .inr fun more => by rw [List.cons_append, climb, if_pos rfl, top, if_pos rfl]
        | false =>
            have step (more : List String) : climb current ("super" :: rest ++ name :: more) =
                climb current.dropLast (rest ++ name :: more) := by
              rw [List.cons_append, climb, if_pos rfl, top, if_neg Bool.false_ne_true]
            rcases ih current.dropLast with ⟨start, left, climbed⟩ | nowhere
            · exact .inl ⟨start, left, fun more => (step more).trans (climbed more)⟩
            · exact .inr fun more => (step more).trans (nowhere more)
      · exact .inl ⟨current, first :: rest, fun more => by rw [List.cons_append, climb, if_neg up]⟩

/-- What is behind a name makes no difference to where the path starts. -/
theorem normalize_behind (notSelf : name ≠ "self") (notSuper : name ≠ "super") (module : ModulePath)
    (before : List String) :
    (∃ start left, ∀ more, normalize module (before ++ name :: more) = some (start, left ++ name :: more)) ∨
      ∀ more, normalize module (before ++ name :: more) = none := by
  have filled (start : ModulePath) (left more : List String) :
      (some (start, left ++ name :: more)).filter (fun found => !found.2.isEmpty) =
        some (start, left ++ name :: more) := by
    rw [Option.filter_some, if_pos]
    cases left <;> rfl
  by_cases own : before.head? = some "self"
  · obtain ⟨rest, rfl⟩ := List.head?_eq_some_iff.mp own
    exact .inl ⟨module, rest, fun more => filled module rest more⟩
  by_cases top : (before ++ [name]).head? = some "crate"
  · refine .inr fun more => ?_
    have crate : (before ++ name :: more).head? = some "crate" := by
      cases before <;> exact top
    obtain ⟨rest, same⟩ := List.head?_eq_some_iff.mp crate
    rw [same]
    rfl
  have climbing (more : List String) : normalize module (before ++ name :: more) =
      (climb module (before ++ name :: more)).filter fun found => !found.2.isEmpty := by
    unfold normalize
    dsimp only
    split
    · rename_i rest same
      cases before with
      | nil => exact absurd (List.cons.inj same).1 notSelf
      | cons first _ => exact absurd (congrArg some (List.cons.inj same).1) own
    · rename_i rest same
      cases before with
      | nil => exact absurd (congrArg some (List.cons.inj same).1) top
      | cons first _ => exact absurd (congrArg some (List.cons.inj same).1) top
    · rfl
  rcases climb_behind notSuper module before with ⟨start, left, climbed⟩ | nowhere
  · exact .inl ⟨start, left, fun more => by rw [climbing, climbed, filled]⟩
  · exact .inr fun more => by rw [climbing, nowhere]; rfl

theorem walk_cons (current : ModulePath) (first : String) {rest : List String} (more : rest ≠ []) :
    catalog.walk current (first :: rest) = (catalog.scope? current).bind fun scope =>
      if scope.modules.contains first then catalog.walk (current ++ [first]) rest
      else some (.blocked current (first :: rest)) := by
  obtain ⟨second, further, rfl⟩ := List.exists_cons_of_ne_nil more
  exact walk_step catalog current first second further

/-- A path leads to a name, whatever is behind it, or it is held up before. -/
theorem walk_behind (catalog : Catalog) (name : String) (start : ModulePath) (before : List String) :
    (∃ current, ∀ more, catalog.walk start (before ++ name :: more) = catalog.walk current (name :: more)) ∨
      (∃ current left, ∀ more, catalog.walk start (before ++ name :: more) =
        some (.blocked current (left ++ name :: more))) ∨
      ∀ more, catalog.walk start (before ++ name :: more) = none := by
  induction before generalizing start with
  | nil => exact .inl ⟨start, fun _ => rfl⟩
  | cons first rest ih =>
      have step (more : List String) : catalog.walk start (first :: (rest ++ name :: more)) = _ :=
        walk_cons start first (by simp)
      cases found : catalog.scope? start with
      | none => exact .inr (.inr fun more => by rw [List.cons_append, step, found]; rfl)
      | some scope =>
          cases contained : scope.modules.contains first with
          | false =>
              refine .inr (.inl ⟨start, first :: rest, fun more => ?_⟩)
              rw [List.cons_append, step, found, Option.bind_some, contained, if_neg Bool.false_ne_true]
          | true =>
              have below (more : List String) : catalog.walk start (first :: rest ++ name :: more) =
                  catalog.walk (start ++ [first]) (rest ++ name :: more) := by
                rw [List.cons_append, step, found, Option.bind_some, contained, if_pos rfl]
              simp only [below]
              exact ih (start ++ [first])

/-! ### Longer paths and fewer imports -/

theorem undeclared_module {module : ModulePath} {scope : Scope} (undeclared : declaredIn module scope name = none) :
    scope.modules.contains name = false := by
  obtain ⟨-, -, other⟩ := declaredIn_eq_none_iff.mp undeclared
  exact Bool.eq_false_iff.mpr fun contained => other (List.contains_iff_mem.mp contained)

/-- An import that leads nowhere would still be found itself, so only glob imports can be the way to nothing. -/
theorem imported_eq_none {resolve : List String → Option Target} {module : ModulePath} {scope : Scope}
    {first : String} {rest : List String} :
    imported resolve module scope (first :: rest) = none ↔
      scope.imports.lookup first = none ∧ ∀ glob ∈ scope.globs, resolve (glob ++ first :: rest) = none := by
  rw [imported]
  cases bound : scope.imports.lookup first with
  | none => simp
  | some path => cases resolve (path ++ rest) <;> simp

theorem imported_behind {resolve fewer : List String → Option Target} {module : ModulePath} {scope : Scope}
    {before : List String}
    (behind : ∀ glob more, resolve ((glob ++ before) ++ [name]) = none →
      fewer ((glob ++ before) ++ name :: more) = none)
    (missing : imported resolve module scope (before ++ [name]) = none) (more : List String) :
    imported fewer module scope (before ++ name :: more) = none := by
  have nowhere : ∀ glob, resolve (glob ++ (before ++ [name])) = none →
      fewer (glob ++ (before ++ name :: more)) = none := by
    intro glob none
    rw [← List.append_assoc] at none ⊢
    exact behind glob more none
  cases before with
  | nil =>
      obtain ⟨unbound, globs⟩ := imported_eq_none.mp missing
      exact imported_eq_none.mpr ⟨unbound, fun glob member => nowhere glob (globs glob member)⟩
  | cons first rest =>
      obtain ⟨unbound, globs⟩ := imported_eq_none.mp missing
      exact imported_eq_none.mpr ⟨unbound, fun glob member => nowhere glob (globs glob member)⟩

/-- What is found where a path has led, by so many imports. -/
def landing (catalog : Catalog) (fuel : Nat) : Walk → Option Target
  | .arrived current name =>
    (catalog.scope? current).bind fun scope =>
      (declaredIn current scope name).or (imported (catalog.resolveWithin fuel current) current scope [name])
  | .blocked current rest =>
    (catalog.scope? current).bind fun scope => imported (catalog.resolveWithin fuel current) current scope rest

theorem resolveWithin_succ (catalog : Catalog) (fuel : Nat) (module : ModulePath) (segments : List String) :
    catalog.resolveWithin (fuel + 1) module segments =
      (normalize module segments).bind fun begun =>
        (catalog.walk begun.1 begun.2).bind (catalog.landing fuel) := by
  rw [resolveWithin]
  rfl

/-- That longer paths lead to nothing if the shorter ones do, which may follow so many imports. -/
def Behind (catalog : Catalog) (name : String) (fuel less : Nat) : Prop :=
  ∀ module before, catalog.resolveWithin fuel module (before ++ [name]) = none →
    ∀ more, catalog.resolveWithin less module (before ++ name :: more) = none

theorem landing_blocked {fuel less : Nat} (behind : catalog.Behind name fuel less) {current : ModulePath}
    {left : List String} (missing : catalog.landing fuel (.blocked current (left ++ [name])) = none)
    (more : List String) : catalog.landing less (.blocked current (left ++ name :: more)) = none := by
  rw [landing] at missing ⊢
  cases found : catalog.scope? current with
  | none => rfl
  | some scope =>
      rw [found, Option.bind_some] at missing
      exact imported_behind (fun glob more none => behind current (glob ++ left) none more) missing more

/-- A name that is not found as the last one is no module either, so a longer path is held up there. -/
theorem landing_arrived {fuel less : Nat} (behind : catalog.Behind name fuel less) {current : ModulePath}
    (missing : catalog.landing fuel (.arrived current name) = none) (more : List String) :
    (catalog.walk current (name :: more)).bind (catalog.landing less) = none := by
  rw [landing] at missing
  cases found : catalog.scope? current with
  | none =>
      cases more with
      | nil =>
          show (catalog.scope? current).bind _ = none
          rw [found]
          rfl
      | cons second further =>
          rw [walk_step, found]
          rfl
  | some scope =>
      rw [found, Option.bind_some, Option.or_eq_none_iff] at missing
      obtain ⟨undeclared, unimported⟩ := missing
      have through : imported (catalog.resolveWithin less current) current scope ([] ++ name :: more) = none :=
        imported_behind (fun glob more none => behind current (glob ++ []) none more) unimported more
      cases more with
      | nil =>
          show (catalog.scope? current).bind _ = none
          rw [found, Option.bind_some, undeclared]
          exact through
      | cons second further =>
          rw [walk_step, found, Option.bind_some, undeclared_module undeclared, if_neg Bool.false_ne_true,
            Option.bind_some, landing, found, Option.bind_some]
          exact through

/-- Behind a path that resolves to nothing there is nothing, by no more imports. -/
theorem resolveWithin_behind (notSelf : name ≠ "self") (notSuper : name ≠ "super") {fuel less : Nat}
    (fewer : less ≤ fuel) : catalog.Behind name fuel less := by
  intro module before missing more
  induction less generalizing fuel module before more with
  | zero => rfl
  | succ less ih =>
      obtain ⟨fuel, rfl⟩ := Nat.exists_eq_add_one.mpr (Nat.lt_of_lt_of_le (Nat.succ_pos less) fewer)
      have behind : catalog.Behind name fuel less :=
        fun module before missing more => ih (Nat.le_of_succ_le_succ fewer) module before missing more
      rw [resolveWithin_succ] at missing ⊢
      rcases normalize_behind notSelf notSuper module before with ⟨start, left, normal⟩ | nowhere
      · rw [normal, Option.bind_some] at missing ⊢
        dsimp only at missing ⊢
        rcases walk_behind catalog name start left with ⟨current, arrives⟩ | ⟨current, above, blocked⟩ | nowhere
        · rw [arrives] at missing ⊢
          exact landing_arrived behind missing more
        · rw [blocked, Option.bind_some] at missing ⊢
          exact landing_blocked behind missing more
        · rw [nowhere]
          rfl
      · rw [nowhere]
        rfl

/-- A name that resolves to nothing begins no path that does. -/
theorem resolve_behind {place : ModulePath} (notSelf : name ≠ "self") (notSuper : name ≠ "super")
    (missing : catalog.resolve place [name] = none) {fuel : Nat} (fewer : fuel ≤ maxImports) (more : List String) :
    catalog.resolveWithin fuel place (name :: more) = none :=
  resolveWithin_behind notSelf notSuper fewer place [] missing more

end Catalog

end TestDouble
