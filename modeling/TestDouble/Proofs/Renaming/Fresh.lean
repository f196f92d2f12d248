import Mathlib.Data.Fintype.EquivFin
import Mathlib.Logic.Equiv.Basic
import TestDouble.Proofs.Renaming.Site
import TestDouble.Proofs.Renaming.Steady
import TestDouble.Proofs.Specification.Parts
/-!
# Fresh identifiers

Settings stand for a replacement of the two identifiers that the analysis looks for by default. Replacing them by
fresh ones can be undone: on the identifiers of a module it is a renaming. What an analysis makes of a module has no
other identifiers than the module, apart from those that the analysis knows by itself, for else an exchange of
unknown ones would be noticed.
-/

namespace TestDouble

/-- Replaces the identifiers that the analysis looks for by default by those of the settings. -/
def Settings.replace (settings : Settings) (own : String) : String :=
  if own = ({} : Settings).dispatcher then settings.dispatcher
  else if own = ({} : Settings).returns then settings.returns
  else own

namespace Tree

/-! ### The identifiers of a tree -/

/-- The identifiers that stand in a tree. -/
def identifiers (tree : Tree) : List String :=
  tree.tokens.filterMap fun
    | .ident own => some own
    | _ => none

theorem mem_identifiers {tree : Tree} {own : String} : own ∈ tree.identifiers ↔ Token.ident own ∈ tree.tokens := by
  rw [identifiers, List.mem_filterMap]
  constructor
  · rintro ⟨token, member, found⟩
    split at found
    · cases found
      exact member
    · cases found
  · exact fun member => ⟨_, member, rfl⟩

theorem identifiers_child {kind : Kind} {children : List Tree} {child : Tree} (member : child ∈ children) :
    child.identifiers ⊆ (node kind children).identifiers :=
  fun _ inside => mem_identifiers.mpr (ident_mem_tokens member (mem_identifiers.mp inside))

theorem identifiers_ident {kind : Kind} {children : List Tree} {own : String} (member : ident own ∈ children) :
    own ∈ (node kind children).identifiers :=
  identifiers_child member (mem_identifiers.mpr List.mem_cons_self)

theorem identifiers_subtree {tree part : Tree} (inside : part ∈ tree.subtrees) : part.identifiers ⊆ tree.identifiers :=
  inherited (motive := fun part => part.identifiers ⊆ tree.identifiers)
    (fun within member => List.Subset.trans (identifiers_child member) within) (List.Subset.refl _) inside

theorem declaredName?_identifier {tree : Tree} {name : String} (declared : tree.declaredName? = some name) :
    name ∈ tree.identifiers := by
  unfold declaredName? at declared
  split at declared
  all_goals cases declared
  all_goals exact identifiers_ident (by simp [ident])

/-- What messages quote of a node is a part of it. -/
theorem quotedParts_subset (tree : Tree) : tree.quotedParts ⊆ tree.subtrees := by
  intro quoted member
  have own := mem_subtrees_self quoted
  unfold quotedParts at member
  split at member
  · split at member
    · rename_i callee _ _
      cases found : Specification.typeArguments? callee with
      | none =>
          rw [found] at member
          cases member
      | some arguments =>
          rw [found] at member
          exact subtrees_child (by simp) (Specification.typeArguments?_subset found member)
    · cases member
  · exact subtrees_child (by simp) (resultType?_mem (Option.mem_toList.mp member))
  · rename_i path more _
    cases List.mem_singleton.mp member
    have inInvocation : quoted ∈ (node .invocation (quoted :: more)).subtrees := subtrees_child List.mem_cons_self own
    exact subtrees_child (by simp) inInvocation
  · cases List.mem_singleton.mp member
    exact subtrees_child (by simp) own
  · cases member

end Tree

/-! ### Renaming by fresh identifiers -/

namespace Settings

variable {settings : Settings}

theorem replace_other {own : String} (notDispatcher : own ≠ ({} : Settings).dispatcher)
    (notReturns : own ≠ ({} : Settings).returns) : settings.replace own = own := by
  rw [replace, if_neg notDispatcher, if_neg notReturns]

/-- On words without the new identifiers, replacing the identifiers is a renaming that can be undone. -/
theorem exists_renaming (different : settings.dispatcher ≠ settings.returns) {words : List String}
    (dispatcher : settings.dispatcher ∉ words) (returns : settings.returns ∉ words) :
    ∃ σ : Equiv.Perm String, ∀ word ∈ ({} : Settings).dispatcher :: ({} : Settings).returns :: words,
      σ word = settings.replace word := by
  let first := Equiv.swap ({} : Settings).dispatcher settings.dispatcher
  let second := Equiv.swap (first ({} : Settings).returns) settings.returns
  have distinct : settings.dispatcher ≠ first ({} : Settings).returns := by
    intro same
    have back := congrArg first same
    rw [Equiv.swap_apply_right, Equiv.swap_apply_self] at back
    exact absurd back (by decide)
  have led : second (first ({} : Settings).dispatcher) = settings.dispatcher := by
    rw [Equiv.swap_apply_left]
    exact Equiv.swap_apply_of_ne_of_ne distinct different
  have called : second (first ({} : Settings).returns) = settings.returns := Equiv.swap_apply_left _ _
  refine ⟨first.trans second, fun word member => ?_⟩
  change second (first word) = _
  by_cases isDispatcher : word = ({} : Settings).dispatcher
  · rw [isDispatcher, led, replace, if_pos rfl]
  by_cases isReturns : word = ({} : Settings).returns
  · rw [isReturns, called, replace, if_neg (by decide), if_pos rfl]
  have listed : word ∈ words := by simpa [isDispatcher, isReturns] using member
  have kept : first word = word :=
    Equiv.swap_apply_of_ne_of_ne isDispatcher fun same => dispatcher (same ▸ listed)
  have other : word ≠ first ({} : Settings).returns := fun same => isReturns (first.injective (kept.trans same))
  rw [kept, replace_other isDispatcher isReturns]
  exact Equiv.swap_apply_of_ne_of_ne other fun same => returns (same ▸ listed)

end Settings

/-! ### Known words -/

/-- The words that a module and its analysis know. -/
def Tree.known (module : Tree) : List String :=
  ({} : Settings).dispatcher :: ({} : Settings).returns :: (module.identifiers ++ reservedWords)

/-- If no exchange of two unknown words can be seen among some words, they are all known. -/
theorem known_of_swaps {words known : List String}
    (kept : ∀ own other, own ∉ known → other ∉ known → ∀ word ∈ words, Equiv.swap own other word ∈ words) :
    words ⊆ known := by
  intro own member
  by_contra unknown
  obtain ⟨other, outside⟩ := Infinite.exists_notMem_finset (known ++ words).toFinset
  rw [List.mem_toFinset, List.mem_append, not_or] at outside
  have exchanged := kept own other unknown outside.1 own member
  rw [Equiv.swap_apply_left] at exchanged
  exact outside.2 exchanged

end TestDouble
