import TestDouble.Proofs.Catalog.Resolution
import TestDouble.Proofs.Source.Plain
/-!
# What paths resolve to

Whatever a path resolves to is declared in a module: a trait, else a type, else a module of that name, of
several ones of a name the last; or it is an import, as it is written. Conversely everything declared is
found from every module by going up to the annotated module and down again, whatever is imported.
-/

namespace TestDouble

namespace Catalog

/-- That an entry is the last one under its name. -/
def Last {α : Type} (entries : List (String × α)) (name : String) (value : α) : Prop :=
  ∃ before after, entries = before ++ (name, value) :: after ∧ ∀ entry ∈ after, entry.1 ≠ name

theorem lookup_reverse_eq_some {α : Type} {entries : List (String × α)} {name : String} {value : α} :
    entries.reverse.lookup name = some value ↔ Last entries name value := by
  rw [List.lookup_eq_some_iff]
  constructor
  · rintro ⟨after, before, same, other⟩
    refine ⟨before.reverse, after.reverse, ?_, fun entry member => ?_⟩
    · rw [← List.reverse_inj, same]
      simp
    · have different := other entry (List.mem_reverse.mp member)
      exact Ne.symm (by simpa using different)
  · rintro ⟨before, after, rfl, other⟩
    refine ⟨after.reverse, before.reverse, by simp, fun entry member => ?_⟩
    simpa using Ne.symm (other entry (List.mem_reverse.mp member))

theorem lookup_reverse_eq_none {α : Type} {entries : List (String × α)} {name : String} :
    entries.reverse.lookup name = none ↔ ∀ entry ∈ entries, entry.1 ≠ name := by
  rw [List.lookup_eq_none_iff]
  simp only [List.mem_reverse, bne_iff_ne, @ne_comm _ name]

/-- What a name stands for in a module at a path: a trait, else a type, else a module declared in it. -/
inductive Declared (path : ModulePath) (content : List Tree) (name : String) : Target → Prop where
  | trait {item : TraitItem} (last : Last (Scope.traitsOf content) name item) :
      Declared path content name (.trait path item)
  | type {aliased : Option Tree} (noTrait : ∀ entry ∈ Scope.traitsOf content, entry.1 ≠ name)
      (last : Last (Scope.typesOf content) name aliased) : Declared path content name (.type path name aliased)
  | module (noTrait : ∀ entry ∈ Scope.traitsOf content, entry.1 ≠ name)
      (noType : ∀ entry ∈ Scope.typesOf content, entry.1 ≠ name)
      (declared : ∃ item ∈ content, item.moduleName? = some name) :
      Declared path content name (.module (path ++ [name]))

theorem declaredIn_eq_some {path : ModulePath} {content : List Tree} {name : String} {target : Target} :
    declaredIn path (Scope.ofItems content) name = some target ↔ Declared path content name target := by
  unfold declaredIn
  rw [Scope.ofItems_traits, Scope.ofItems_types]
  constructor
  · intro found
    split at found
    · rename_i item last
      cases found
      exact .trait (lookup_reverse_eq_some.mp last)
    · rename_i noTrait
      split at found
      · rename_i aliased last
        cases found
        exact .type (lookup_reverse_eq_none.mp noTrait) (lookup_reverse_eq_some.mp last)
      · rename_i noType
        split at found
        · rename_i contained
          cases found
          exact .module (lookup_reverse_eq_none.mp noTrait) (lookup_reverse_eq_none.mp noType)
            (Scope.mem_ofItems_modules.mp (List.contains_iff_mem.mp contained))
        · cases found
  · intro declared
    cases declared with
    | trait last => rw [lookup_reverse_eq_some.mpr last]
    | type noTrait last => rw [lookup_reverse_eq_none.mpr noTrait, lookup_reverse_eq_some.mpr last]
    | module noTrait noType declared =>
        have contained := List.contains_iff_mem.mpr (Scope.mem_ofItems_modules.mpr declared)
        rw [lookup_reverse_eq_none.mpr noTrait, lookup_reverse_eq_none.mpr noType]
        exact if_pos contained

variable {root : String} {items : List Tree}

/-! ### What resolving finds -/

/-- What a path can resolve to: something declared in a module, or an import of one as it is written there. -/
inductive Found (items : List Tree) : Target → Prop where
  | declared {path : ModulePath} {content : List Tree} {name : String} {target : Target}
      (inline : Inline items path content) (declared : Declared path content name target) : Found items target
  | external {path : ModulePath} {content : List Tree} {name : String} {written : List String}
      (inline : Inline items path content) (last : Last (Scope.importsOf content) name written) :
      Found items (.external path name written)

theorem found_of_resolve {module : ModulePath} {segments : List String} {target : Target}
    (resolved : (ofItems root items).resolve module segments = some target) : Found items target := by
  refine resolveWithin_found (Found items) closed_all ?_ ?_ trivial resolved
  · intro path scope name target _ scopeFound declared
    obtain ⟨content, inline, rfl⟩ := inline_of_scope? scopeFound
    exact .declared inline (declaredIn_eq_some.mp declared)
  · intro path scope name written _ scopeFound bound
    obtain ⟨content, inline, rfl⟩ := inline_of_scope? scopeFound
    rw [Scope.ofItems_imports] at bound
    exact .external inline (lookup_reverse_eq_some.mp bound)

/-! ### Up to the annotated module and down again -/

/-- As many steps up as there are modules above lead to the annotated module, and more lead nowhere. -/
theorem climb_supers (module : ModulePath) (steps : Nat) (rest : List String) :
    climb module (List.replicate steps "super" ++ rest) =
      if steps ≤ module.length then climb (module.take (module.length - steps)) rest else none := by
  induction steps generalizing module with
  | zero => simp
  | succ steps ih =>
      rw [List.replicate_succ, List.cons_append, climb, if_pos rfl]
      cases empty : module.isEmpty with
      | true =>
          rw [List.isEmpty_iff.mp empty]
          simp
      | false =>
          have filled : 0 < module.length := List.length_pos_iff.mpr (List.isEmpty_eq_false_iff.mp empty)
          rw [if_neg Bool.false_ne_true, ih, List.length_dropLast, List.dropLast_eq_take, List.take_take]
          have bound : steps ≤ module.length - 1 ↔ steps + 1 ≤ module.length := by omega
          have left : min (module.length - 1 - steps) (module.length - 1) = module.length - (steps + 1) := by omega
          simp only [bound, left]

theorem resolve_above {catalog : Catalog} {module : ModulePath} {steps : Nat} (more : module.length < steps)
    (rest : List String) : catalog.resolve module (List.replicate steps "super" ++ rest) = none := by
  have outside : normalize module (List.replicate steps "super" ++ rest) = none := by
    cases steps with
    | zero => exact absurd more (Nat.not_lt_zero _)
    | succ steps =>
        have climbed := climb_supers module (steps + 1) rest
        rw [if_neg (Nat.not_le.mpr more), List.replicate_succ, List.cons_append] at climbed
        unfold normalize
        simp [List.replicate_succ, climbed]
  rw [resolve, maxImports, resolveWithin, outside]
  rfl

/-- Behind so many `super`, a path is read from the module so many levels up. -/
theorem normalize_supers {module : ModulePath} {steps : Nat} (inside : steps ≤ module.length) {first : String}
    (plain : first ∉ Name.anchors) (rest : List String) :
    normalize module (List.replicate steps "super" ++ first :: rest) =
      some (module.take (module.length - steps), first :: rest) := by
  have climbed := climb_supers module steps (first :: rest)
  have notSuper : first ≠ "super" := fun same => plain (by simp [same, Name.anchors])
  rw [if_pos inside, climb, if_neg notSuper] at climbed
  cases steps with
  | zero =>
      rw [Nat.sub_zero, List.take_length]
      exact normalize_plain plain
  | succ steps =>
      rw [List.replicate_succ, List.cons_append] at climbed ⊢
      unfold normalize
      simp [climbed]

theorem normalize_up {module : ModulePath} {first : String} {rest : List String} (plain : first ∉ Name.anchors) :
    normalize module (List.replicate module.length "super" ++ first :: rest) = some ([], first :: rest) := by
  rw [normalize_supers (Nat.le_refl _) plain, Nat.sub_self, List.take_zero]

/-- From every module, what another one declares is found by going up to the annotated module and down again. -/
theorem resolve_declared (formed : ∀ item ∈ items, item.wellFormed = true) (apart : (ofItems root items).Apart)
    {path : ModulePath} {content : List Tree} (inline : Inline items path content) {name : String} {target : Target}
    (declared : Declared path content name target) (start : ModulePath) :
    (ofItems root items).resolve start (List.replicate start.length "super" ++ (path ++ [name])) = some target := by
  have named : (ofItems root items).Named := named_ofItems formed
  have reached := reached_of_inline apart inline
  have scopeFound := scope?_of_inline apart inline
  have own := declaredIn_eq_some.mpr declared
  have plain : name ∉ Name.anchors := declaredIn_plain (named _ _ scopeFound) own
  have written : normalize start (List.replicate start.length "super" ++ (path ++ [name])) =
      some ([], path ++ [name]) := by
    cases path with
    | nil => exact normalize_up plain
    | cons first rest => exact normalize_up (reached.plain named first List.mem_cons_self)
  have descent : (ofItems root items).walk [] (path ++ [name]) = some (.arrived path name) :=
    reached.walk (List.cons_ne_nil _ _)
  rw [resolve, maxImports, resolveWithin_arrived written descent, scopeFound, Option.bind_some, own]
  rfl

end Catalog

/-- That an item declares a trait, a type or a module of a name. -/
def Tree.Declares (item : Tree) (name : String) : Prop :=
  item.asTrait?.map TraitItem.name = some name ∨ item.declaredType?.map Prod.fst = some name ∨
    item.moduleName? = some name

namespace Catalog

variable {root : String} {items : List Tree}

theorem declared_of_item (path : ModulePath) {content : List Tree} {item : Tree} (member : item ∈ content)
    {name : String} (declares : item.Declares name) : ∃ target, Declared path content name target := by
  cases found : declaredIn path (Scope.ofItems content) name with
  | some target => exact ⟨target, declaredIn_eq_some.mp found⟩
  | none =>
      obtain ⟨noTrait, noType, noModule⟩ := declaredIn_eq_none_iff.mp found
      rw [Scope.ofItems_traits] at noTrait
      rw [Scope.ofItems_types] at noType
      rcases declares with trait | type | module
      · obtain ⟨own, viewed, same⟩ := Option.map_eq_some_iff.mp trait
        have inside : (own.name, own) ∈ Scope.traitsOf content :=
          List.mem_flatMap.mpr ⟨item, member, by simp [viewed]⟩
        exact absurd same (lookup_reverse_eq_none.mp noTrait _ inside)
      · obtain ⟨entry, viewed, same⟩ := Option.map_eq_some_iff.mp type
        have inside : entry ∈ Scope.typesOf content := List.mem_flatMap.mpr ⟨item, member, by simp [viewed]⟩
        exact absurd same (lookup_reverse_eq_none.mp noType _ inside)
      · exact absurd (Scope.mem_ofItems_modules.mpr ⟨item, member, module⟩) noModule

/-- What a name stands for in a module comes from an item that declares it there. -/
theorem item_of_declared {path : ModulePath} {content : List Tree} {name : String} {target : Target}
    (declared : Declared path content name target) : ∃ item ∈ content, item.Declares name := by
  cases declared with
  | @trait found last =>
      obtain ⟨before, after, entries, _⟩ := last
      have listed : (name, found) ∈ Scope.traitsOf content := by rw [entries]; simp
      obtain ⟨item, member, own⟩ := List.mem_flatMap.mp listed
      obtain ⟨viewed, view, same⟩ := Option.map_eq_some_iff.mp (Option.mem_toList.mp own)
      exact ⟨item, member, .inl (by rw [view]; exact congrArg (fun entry => some entry.1) same)⟩
  | @type aliased noTrait last =>
      obtain ⟨before, after, entries, _⟩ := last
      have listed : (name, aliased) ∈ Scope.typesOf content := by rw [entries]; simp
      obtain ⟨item, member, own⟩ := List.mem_flatMap.mp listed
      exact ⟨item, member, .inr (.inl (by rw [Option.mem_toList.mp own]; rfl))⟩
  | module noTrait noType declared =>
      obtain ⟨item, member, own⟩ := declared
      exact ⟨item, member, .inr (.inr own)⟩

/--
What paths resolve to, in an annotated module in which no module declares two modules of one name. Whatever
is found is declared in a module, or an import of one that leads outside. Everything that a module declares
is found from every module, by going up to the annotated module and down again; of several traits, or types,
of one name the last is found. Going up further leads nowhere.
-/
theorem resolve_exact {module : Tree} (formed : module.wellFormed = true)
    (inline : module.asModule? = some ⟨root, some items⟩) (apart : (ofItems root items).Apart) :
    (∀ start segments target, (ofItems root items).resolve start segments = some target → Found items target) ∧
      (∀ start path content, Inline items path content → ∀ item ∈ content, ∀ name, item.Declares name →
        ∃ target, Declared path content name target ∧
          (ofItems root items).resolve start (List.replicate start.length "super" ++ (path ++ [name])) =
            some target) ∧
      ∀ start steps rest, start.length < steps →
        (ofItems root items).resolve start (List.replicate steps "super" ++ rest) = none := by
  refine ⟨fun start segments target resolved => found_of_resolve resolved, ?_,
    fun start steps rest more => resolve_above more rest⟩
  intro start path content reached item member name declares
  obtain ⟨target, declared⟩ := declared_of_item path member declares
  exact ⟨target, declared, resolve_declared (Tree.wellFormed_content inline formed) apart reached declared start⟩

/-- A trait in one module, and another module that imports everything from itself. -/
def circularItems : List Tree :=
  [Tree.inlineModule "a" [Tree.plainTrait "I" []],
    Tree.inlineModule "b" [.node .itemUse [Tree.noAttributes, Tree.absent, Tree.ident "use", Tree.absent,
      .node .usePath [Tree.ident "self", Tree.punct "::", .node .useGlob [Tree.punct "*"]], Tree.punct ";"]]]

theorem resolve_exact_circular :
    (ofItems "samples" circularItems).Apart ∧
      (∃ target, Declared ["a"] [Tree.plainTrait "I" []] "I" target ∧
        (ofItems "samples" circularItems).resolve ["b"] ["super", "a", "I"] = some target) ∧
      (ofItems "samples" circularItems).resolve ["b"] ["super", "super", "a", "I"] = none := by
  have formed : (Tree.inlineModule "samples" circularItems).wellFormed = true := by decide
  have inline : (Tree.inlineModule "samples" circularItems).asModule? = some ⟨"samples", some circularItems⟩ := rfl
  have apart : (ofItems "samples" circularItems).Apart := by decide
  obtain ⟨_, complete, above⟩ := resolve_exact formed inline apart
  have reached : Inline circularItems ["a"] [Tree.plainTrait "I" []] := .inner (.head _) rfl (.here _)
  exact ⟨apart, complete ["b"] _ _ reached _ (.head _) "I" (.inl rfl), above ["b"] 2 ["a", "I"] (by decide)⟩

/-- Two aliases of one name, as under complementary conditions. -/
def aliasedItems : List Tree :=
  [Tree.aliasItem "T" (Tree.namedType ["u8"]), Tree.aliasItem "T" (Tree.namedType ["u16"])]

/-- The first of two types of one name is not found. -/
theorem alias_hidden :
    (Tree.inlineModule "samples" aliasedItems).wellFormed = true ∧ (ofItems "samples" aliasedItems).Apart ∧
      ∃ item ∈ aliasedItems, item.declaredType? = some ("T", some (Tree.namedType ["u8"])) ∧
        (ofItems "samples" aliasedItems).resolve [] ["T"] = some (.type [] "T" (some (Tree.namedType ["u16"]))) ∧
        Tree.namedType ["u8"] ≠ Tree.namedType ["u16"] :=
  ⟨by decide, by decide, _, .head _, rfl, rfl, fun same => absurd (congrArg Tree.tokens same) (by decide)⟩

end Catalog

end TestDouble
