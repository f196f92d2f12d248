import TestDouble.Proofs.Catalog.Writable
import TestDouble.Proofs.Import.Surface
import TestDouble.Proofs.Specification.Parts
/-!
# The names in imports

An import is put together from the path of a module, the names of what is declared there, the names in a signature
and words that climb. In a module read from source all of them can be written, and so can the import.
-/

namespace TestDouble

namespace Tree

variable {path : Tree}

theorem isValid_segment {segment : Tree} (formed : segment.wellFormed = true) (kind : segment.kind? = some .segment) :
    Name.isValid segment.segmentName = true := by
  cases segment with
  | token t => cases kind
  | node own children =>
      obtain rfl : own = .segment := Option.some.inj kind
      have shape : isSegment children = true := wellFormed_fits formed
      obtain ⟨name, rest, rfl⟩ := isSegment_shape shape
      exact wellFormed_child formed List.mem_cons_self

theorem names_valid (formed : path.wellFormed = true) : Name.AllValid path.names := by
  intro name member
  obtain ⟨segment, inside, rfl⟩ := List.mem_map.mp member
  unfold segments at inside
  split at inside
  · obtain ⟨child, kind⟩ := List.mem_filter.mp inside
    exact isValid_segment (wellFormed_child formed child) (eq_of_beq kind)
  · cases inside

end Tree

namespace Import

variable {catalog : Catalog}

/-- All that is written of a contract can be written again. -/
theorem Written.valid {contract : TraitItem} {names : List String} (written : Written contract names)
    (named : Name.isValid contract.name = true) (members : ∀ member ∈ contract.members, member.wellFormed = true) :
    Name.AllValid names := by
  cases written with
  | own => exact Name.AllValid.nil.concat named
  | @used signature path method inside needed =>
      obtain ⟨member, held, found⟩ := List.mem_filterMap.mp method
      have formed := Tree.wellFormed_part (members _ held) (Tree.methodSignature?_mem found)
      exact Tree.names_valid (Tree.wellFormed_part formed (paths_subset _ inside))

theorem fromRoot_valid (escaped : Nat) {module : ModulePath} {name : String} (valid : Name.AllValid module)
    (own : Name.isValid name = true) : Name.AllValid (fromRoot escaped module name).segments := by
  have climbing : Name.isValid "super" = true := by decide
  refine Name.AllValid.concat (fun part member => ?_) own
  rcases List.mem_append.mp member with step | inside
  · rw [List.eq_of_mem_replicate step]
    exact climbing
  · exact valid part inside

theorem ofName_valid (writable : catalog.Writable) {module : ModulePath} {name : String} {found : ImportPath}
    (valid : Name.AllValid module) (own : Name.isValid name = true) (computed : ofName catalog module name = some found) :
    Name.AllValid found.segments := by
  cases resolved : catalog.resolve module [name] with
  | none =>
      rw [ofName_unresolved resolved] at computed
      cases computed
      exact fromRoot_valid 0 valid own
  | some target =>
      have held := writable.target valid resolved
      cases target with
      | trait place item =>
          rw [ofName_declared resolved rfl] at computed
          cases computed
          exact fromRoot_valid 0 held.1 (Bool.and_eq_true_iff.mp held.2.1).1
      | type place name aliased =>
          rw [ofName_declared resolved rfl] at computed
          cases computed
          exact fromRoot_valid 0 held.1 held.2
      | module path =>
          rw [ofName, resolved] at computed
          obtain ⟨last, ends, same⟩ := Option.map_eq_some_iff.mp computed
          cases same
          exact fromRoot_valid 0 (Name.AllValid.subset held (List.dropLast_subset path))
            (held last (List.mem_of_getLast? ends))
      | external place name path =>
          rw [ofName_external resolved] at computed
          split at computed
          · cases computed
            exact held
          · cases computed
            exact fromRoot_valid 0 valid own

theorem ascend_valid {module : ModulePath} (valid : Name.AllValid module) (escaped : Nat) {segments : List String}
    (named : Name.AllValid segments) :
    Name.AllValid (ascend module escaped segments).module ∧ Name.AllValid (ascend module escaped segments).rest := by
  induction segments generalizing module escaped with
  | nil => exact ⟨valid, named⟩
  | cons first rest ih =>
      have below := named.subset (List.subset_cons_self first rest)
      rw [ascend]
      split
      · split
        · exact ih valid (escaped + 1) below
        · exact ih (valid.subset (List.dropLast_subset module)) escaped below
      · exact ⟨valid, named⟩

theorem ofAscent_valid (writable : catalog.Writable) {ascent : Ascent} {found : ImportPath}
    (valid : Name.AllValid ascent.module) (named : Name.AllValid ascent.rest)
    (computed : ofAscent catalog ascent = some found) : Name.AllValid found.segments := by
  unfold ofAscent at computed
  split at computed
  · cases computed
  · rename_i name rest left
    have own : Name.isValid name = true := named name (left ▸ List.mem_cons_self)
    split at computed
    · cases computed
      exact fromRoot_valid _ valid own
    · exact ofName_valid writable valid own computed

/-- The import of a path in a module can be written if the path and the path of the module can. -/
theorem ofPath_valid (writable : catalog.Writable) {module : ModulePath} {segments : List String}
    {found : ImportPath} (valid : Name.AllValid module) (named : Name.AllValid segments)
    (computed : ofPath catalog module segments = some found) : Name.AllValid found.segments := by
  obtain ⟨lead, below, rfl, optional⟩ := exists_optional segments
  rw [ofPath_optional catalog module optional] at computed
  have climbed := ascend_valid valid 0 (named.subset (List.subset_append_right lead below))
  exact ofAscent_valid writable climbed.1 climbed.2 computed

end Import

end TestDouble
