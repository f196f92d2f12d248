import Mathlib.Logic.Relation
import TestDouble.Proofs.Source.Plain
import TestDouble.ResultType
/-!
# Aliases

An alias resolves as the type it stands for, seen from the module that declares it. Following it takes one of the
steps that types may nest, so an alias may nest too deeply where its target does not; it differs in no other way. A
type that leads back to itself exhausts any number of steps, so it is rejected.
-/

namespace TestDouble

namespace ResultType

/-! ### Fewer steps -/

/-- That a result is the full one, unless the type was found to nest too deeply. -/
def CutShort {α : Type} (result full : Except TypeFault α) : Prop :=
  result = .error .nestsTooDeeply ∨ result = full

namespace CutShort

theorem refl {α : Type} (result : Except TypeFault α) : CutShort result result := .inr rfl

theorem map {α β : Type} {result full : Except TypeFault α} (short : CutShort result full) (f : α → β) :
    CutShort (result.map f) (full.map f) := by
  rcases short with deep | same
  · exact .inl (by rw [deep]; rfl)
  · exact .inr (by rw [same])

/-- Of several results the first error counts, so one that is cut short cuts all of them short. -/
theorem mapM {α : Type} {resolve full : Tree → Except TypeFault α} {elements : List Tree}
    (each : ∀ element ∈ elements, CutShort (resolve element) (full element)) :
    CutShort (elements.mapM resolve) (elements.mapM full) := by
  induction elements with
  | nil => exact .refl _
  | cons first rest ih =>
      have later := ih fun element member => each element (List.mem_cons_of_mem _ member)
      rw [List.mapM_cons, List.mapM_cons]
      rcases each first List.mem_cons_self with deep | same
      · rw [deep]
        exact .inl rfl
      · rw [same]
        cases full first with
        | error fault => exact .refl _
        | ok descriptor => exact later.map (descriptor :: ·)

theorem ofPath {follow full : ModulePath → Tree → Except TypeFault Descriptor}
    (along : ∀ place target, CutShort (follow place target) (full place target)) (catalog : Catalog)
    (module : ModulePath) (path : Tree) :
    CutShort (ResultType.ofPath catalog module path follow) (ResultType.ofPath catalog module path full) := by
  unfold ResultType.ofPath
  dsimp only
  split
  · split
    · exact .refl _
    · split
      · exact .refl _
      · split
        · exact along _ _
        all_goals exact .refl _
  · exact .refl _

end CutShort

/-- One step more changes nothing but that a type may no longer nest too deeply. -/
theorem resolveWithin_cutShort (catalog : Catalog) (fuel : Nat) (module : ModulePath) (type : Tree) :
    CutShort (resolveWithin catalog fuel module type) (resolveWithin catalog (fuel + 1) module type) := by
  induction fuel generalizing module type with
  | zero => exact .inl rfl
  | succ fuel ih =>
      rw [resolveWithin.eq_def catalog (fuel + 1), resolveWithin.eq_def catalog (fuel + 2)]
      dsimp only
      split
      · split
        · exact .refl _
        · exact (CutShort.mapM fun element _ => ih module element).map _
      · exact ih module _
      · exact .refl _
      · exact .refl _
      · exact CutShort.ofPath ih catalog module _
      all_goals exact .refl _

/-! ### Following aliases -/

/-- That a path, as written in a module, is an alias of a type that stands in another one. -/
structure Aliases (catalog : Catalog) (module : ModulePath) (path : Tree) (place : ModulePath) (target : Tree) :
    Prop where
  unrooted : path.isRootPath = false
  ordinary : ∀ first ∈ path.names.head?, first ≠ "Self" ∧ first ∉ WellKnown.standardCrates
  resolved : ∃ name, catalog.resolve module path.names = some (.type place name (some target))

namespace Aliases

variable {catalog : Catalog} {module place : ModulePath} {path target : Tree}

theorem names (aliases : Aliases catalog module path place target) :
    ∃ first rest, path.names = first :: rest := by
  obtain ⟨name, resolved⟩ := aliases.resolved
  cases names : path.names with
  | nil =>
      rw [names] at resolved
      cases resolved
  | cons first rest => exact ⟨first, rest, rfl⟩

/-- The alias takes one step more than its target. -/
theorem resolveWithin_succ (aliases : Aliases catalog module path place target) (fuel : Nat) :
    resolveWithin catalog (fuel + 1) module (.node .typePath [path]) = resolveWithin catalog fuel place target := by
  obtain ⟨first, rest, names⟩ := aliases.names
  obtain ⟨name, resolved⟩ := aliases.resolved
  obtain ⟨ownType, foreign⟩ := aliases.ordinary first (by rw [names]; rfl)
  have last : ∃ own, path.names.getLast? = some own := by
    rw [names]
    exact ⟨_, List.getLast?_eq_some_getLast (List.cons_ne_nil _ _)⟩
  obtain ⟨own, last⟩ := last
  have head : path.names.head? = some first := by rw [names]; rfl
  have free : (path.isRootPath || WellKnown.standardCrates.contains first) = false := by
    rw [aliases.unrooted, Bool.false_or]
    simpa using foreign
  rw [resolveWithin_names _ _ _ names, ofPath]
  simp only [head, last, if_neg ownType, free, resolved, Bool.false_eq_true, if_false]

end Aliases

/-- What a type leads to in one step: an alias to its target, parentheses and tuples to what stands in them. -/
inductive Unfolds (catalog : Catalog) : ModulePath × Tree → ModulePath × Tree → Prop where
  | aliased {module place : ModulePath} {path target : Tree} (aliases : Aliases catalog module path place target) :
      Unfolds catalog (module, .node .typePath [path]) (place, target)
  | paren (module : ModulePath) (inner : Tree) :
      Unfolds catalog (module, .node .typeParen [Tree.group .paren [inner]]) (module, inner)
  | element (module : ModulePath) {group element : Tree} (member : element ∈ group.elements) :
      Unfolds catalog (module, .node .typeTuple [group]) (module, element)

theorem ok_of_mapM {α : Type} {resolve : Tree → Except TypeFault α} {elements : List Tree} {values : List α}
    (accepted : elements.mapM resolve = .ok values) : ∀ element ∈ elements, ∃ value, resolve element = .ok value := by
  induction elements generalizing values with
  | nil => intro element member; cases member
  | cons first rest ih =>
      rw [List.mapM_cons] at accepted
      intro element member
      cases own : resolve first with
      | error fault =>
          rw [own] at accepted
          cases accepted
      | ok value =>
          rw [own] at accepted
          cases later : rest.mapM resolve with
          | error fault =>
              rw [later] at accepted
              cases accepted
          | ok others =>
              rcases List.mem_cons.mp member with rfl | inside
              · exact ⟨value, own⟩
              · exact ih later element inside

variable {catalog : Catalog} {start next : ModulePath × Tree}

/-- What an accepted type leads to is accepted, and takes a step less. -/
theorem Unfolds.accepted (step : Unfolds catalog start next) {fuel : Nat} {descriptor : Descriptor}
    (accepted : resolveWithin catalog fuel start.1 start.2 = .ok descriptor) :
    ∃ less < fuel, ∃ inner, resolveWithin catalog less next.1 next.2 = .ok inner := by
  cases fuel with
  | zero => cases accepted
  | succ fuel =>
      refine ⟨fuel, Nat.lt_succ_self fuel, ?_⟩
      cases step with
      | aliased aliases =>
          rw [aliases.resolveWithin_succ fuel] at accepted
          exact ⟨descriptor, accepted⟩
      | paren module inner => exact ⟨descriptor, accepted⟩
      | @element module group element member =>
          rw [resolveWithin] at accepted
          split at accepted
          · rename_i none
            rw [none] at member
            cases member
          · cases each : group.elements.mapM (resolveWithin catalog fuel module) with
            | error fault =>
                rw [each] at accepted
                cases accepted
            | ok values => exact ok_of_mapM each element member

theorem accepted_of_transGen (leads : Relation.TransGen (Unfolds catalog) start next) {fuel : Nat}
    {descriptor : Descriptor} (accepted : resolveWithin catalog fuel start.1 start.2 = .ok descriptor) :
    ∃ less < fuel, ∃ inner, resolveWithin catalog less next.1 next.2 = .ok inner := by
  induction leads with
  | single step => exact step.accepted accepted
  | tail _ step ih =>
      obtain ⟨less, fewer, inner, reached⟩ := ih
      obtain ⟨least, below, last, found⟩ := step.accepted reached
      exact ⟨least, Nat.lt_trans below fewer, last, found⟩

/-- A type that leads back to itself is accepted in no number of steps. -/
theorem not_accepted_of_cycle (cyclic : Relation.TransGen (Unfolds catalog) start start) (fuel : Nat)
    (descriptor : Descriptor) : resolveWithin catalog fuel start.1 start.2 ≠ .ok descriptor := by
  induction fuel using Nat.strongRecOn generalizing descriptor with
  | ind fuel ih =>
      intro accepted
      obtain ⟨less, fewer, inner, again⟩ := accepted_of_transGen cyclic accepted
      exact ih less fewer inner again

/--
A path that is an alias resolves as the type the alias stands for, seen from where the alias is declared, or it
nests too deeply. A type that leads to one which leads back to itself is rejected.
-/
theorem resolve_alias (catalog : Catalog) :
    (∀ module path place target, Aliases catalog module path place target →
      resolve catalog module (.node .typePath [path]) = .error .nestsTooDeeply ∨
        resolve catalog module (.node .typePath [path]) = resolve catalog place target) ∧
      ∀ start cyclic, Relation.ReflTransGen (Unfolds catalog) start cyclic →
        Relation.TransGen (Unfolds catalog) cyclic cyclic →
        ∃ fault, resolve catalog start.1 start.2 = .error fault := by
  constructor
  · intro module path place target aliases
    unfold resolve maxDepth
    rw [aliases.resolveWithin_succ 16]
    exact resolveWithin_cutShort catalog 16 place target
  · intro start cyclic leads back
    cases found : resolve catalog start.1 start.2 with
    | error fault => exact ⟨fault, rfl⟩
    | ok descriptor =>
        have whole : Relation.TransGen (Unfolds catalog) start cyclic := .trans_right leads back
        obtain ⟨less, _, inner, reached⟩ := accepted_of_transGen whole found
        exact absurd reached (not_accepted_of_cycle back less inner)

/-- An alias of a number in a module of its own, and two aliases that stand for each other. -/
def roundItems : List Tree :=
  let parenthesized := Tree.node .typeParen [Tree.group .paren [Tree.namedType ["inner", "Loop"]]]
  let pair := Tree.node .typeTuple [Tree.group .paren
    [Tree.namedType ["Small"], Tree.punct ",", Tree.namedType ["super", "Round"]]]
  [Tree.aliasItem "Round" parenthesized,
    Tree.inlineModule "inner" [Tree.aliasItem "Small" (Tree.namedType ["u8"]), Tree.aliasItem "Loop" pair]]

/-- The number is found through its alias; what stands for itself is rejected. -/
theorem resolve_alias_round :
    (resolve (.ofItems "samples" roundItems) [] (Tree.namedType ["inner", "Small"]) = .error .nestsTooDeeply ∨
      resolve (.ofItems "samples" roundItems) [] (Tree.namedType ["inner", "Small"]) =
        resolve (.ofItems "samples" roundItems) ["inner"] (Tree.namedType ["u8"])) ∧
      ∃ fault, resolve (.ofItems "samples" roundItems) [] (Tree.namedType ["Round"]) = .error fault := by
  let catalog : Catalog := .ofItems "samples" roundItems
  obtain ⟨transparent, rejected⟩ := resolve_alias catalog
  have small : Aliases catalog [] (Tree.plainPath ["inner", "Small"]) ["inner"] (Tree.namedType ["u8"]) :=
    ⟨by decide, by decide, "Small", rfl⟩
  have outer : Aliases catalog [] (Tree.plainPath ["Round"]) [] _ := ⟨by decide, by decide, "Round", rfl⟩
  have down : Aliases catalog [] (Tree.plainPath ["inner", "Loop"]) ["inner"] _ := ⟨by decide, by decide, "Loop", rfl⟩
  have up : Aliases catalog ["inner"] (Tree.plainPath ["super", "Round"]) [] _ := ⟨by decide, by decide, "Round", rfl⟩
  have leads : Relation.ReflTransGen (Unfolds catalog) ([], Tree.namedType ["Round"]) ([], _) :=
    .single (.aliased outer)
  have round : Relation.TransGen (Unfolds catalog) ([], _) ([], _) :=
    .tail (.tail (.tail (.single (.paren [] (Tree.namedType ["inner", "Loop"]))) (.aliased down))
      (.element ["inner"] (.tail _ (.head _)))) (.aliased up)
  exact ⟨transparent _ _ _ _ small, rejected _ _ leads round⟩

end ResultType

end TestDouble
