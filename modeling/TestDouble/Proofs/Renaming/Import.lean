import TestDouble.Proofs.Import.Denotation
import TestDouble.Proofs.Renaming.Catalog
/-!
# Renaming and the imports of a unit

What a renamed signature needs to import is what the signature needs, renamed, and its relative paths are moved
alike. The surface itself is sorted anew: renamed paths need not ascend.
-/

namespace TestDouble

def ImportPath.rename (name : String → String) (path : ImportPath) : ImportPath :=
  ⟨path.segments.map name⟩

variable {σ : Equiv.Perm String}

namespace Import

/-! ### Imports of paths -/

def Ascent.rename (name : String → String) (ascent : Ascent) : Ascent :=
  ⟨ascent.module.map name, ascent.escaped, ascent.rest.map name⟩

theorem ascend_rename (keeps : Keeps σ) (module : ModulePath) (escaped : Nat) (segments : List String) :
    ascend (module.map σ) escaped (segments.map σ) = (ascend module escaped segments).rename σ := by
  induction segments generalizing module escaped with
  | nil => rfl
  | cons first rest ih =>
      have up : σ first = "super" ↔ first = "super" := keeps.eq_iff (by simp [reservedWords])
      rw [List.map_cons, ascend, ascend, List.isEmpty_map]
      by_cases above : first = "super"
      · rw [if_pos (up.mpr above), if_pos above, ← List.map_dropLast, ih, ih]
        split <;> rfl
      · rw [if_neg (mt up.mp above), if_neg above]
        rfl

theorem fromRoot_rename (keeps : Keeps σ) (escaped : Nat) (module : ModulePath) (name : String) :
    fromRoot escaped (module.map σ) (σ name) = (fromRoot escaped module name).rename σ := by
  have up : σ "super" = "super" := keeps "super" (by simp [reservedWords])
  simp [fromRoot, ImportPath.rename, up]

theorem isAbsolute_rename (keeps : Keeps σ) (path : List String) : isAbsolute (path.map σ) = isAbsolute path := by
  cases path with
  | nil => rfl
  | cons first rest =>
      refine keeps.contains ?_ first
      simp [WellKnown.standardCrates, reservedWords, WellKnown.names, WellKnown.everywhere]

theorem ofName_rename (keeps : Keeps σ) (catalog : Catalog) (module : ModulePath) (name : String) :
    ofName (catalog.rename σ) (module.map σ) (σ name) = (ofName catalog module name).map (ImportPath.rename σ) := by
  have resolved := Catalog.resolve_rename keeps catalog module [name]
  rw [List.map_singleton] at resolved
  rw [ofName, ofName, resolved]
  cases catalog.resolve module [name] with
  | none => exact congrArg some (fromRoot_rename keeps 0 module name)
  | some target =>
      cases target with
      | trait place item => exact congrArg some (fromRoot_rename keeps 0 place item.name)
      | type place own aliased => exact congrArg some (fromRoot_rename keeps 0 place own)
      | module path =>
          simp only [Option.map_some, Target.rename, List.getLast?_map, ← List.map_dropLast]
          cases path.getLast? with
          | none => rfl
          | some own => exact congrArg some (fromRoot_rename keeps 0 path.dropLast own)
      | external place own path =>
          have last : (path.map σ).getLast? = some (σ own) ↔ path.getLast? = some own := by
            rw [List.getLast?_map, ← Option.map_some]
            exact (Option.map_injective σ.injective).eq_iff
          simp only [Option.map_some, Target.rename, isAbsolute_rename keeps, last, fromRoot_rename keeps]
          split <;> rfl

theorem ofAscent_rename (keeps : Keeps σ) (catalog : Catalog) (ascent : Ascent) :
    ofAscent (catalog.rename σ) (ascent.rename σ) = (ofAscent catalog ascent).map (ImportPath.rename σ) := by
  obtain ⟨place, escaped, left⟩ := ascent
  cases left with
  | nil => rfl
  | cons name behind =>
      simp only [ofAscent, Ascent.rename, List.map_cons, fromRoot_rename keeps, ofName_rename keeps]
      split <;> rfl

theorem ofPath_rename (keeps : Keeps σ) (catalog : Catalog) (module : ModulePath) (segments : List String) :
    ofPath (catalog.rename σ) (module.map σ) (segments.map σ) =
      (ofPath catalog module segments).map (ImportPath.rename σ) := by
  have along : ∀ rest : List String, ofAscent (catalog.rename σ) (ascend (module.map σ) 0 (rest.map σ)) =
      (ofAscent catalog (ascend module 0 rest)).map (ImportPath.rename σ) := by
    intro rest
    rw [ascend_rename keeps, ofAscent_rename keeps]
  by_cases own : segments.head? = some "self"
  · obtain ⟨rest, rfl⟩ := List.head?_eq_some_iff.mp own
    rw [List.map_cons, keeps "self" (by simp [reservedWords]), ofPath_self, ofPath_self]
    exact along rest
  · have other : (segments.map σ).head? ≠ some "self" := by
      rw [List.head?_map]
      intro same
      obtain ⟨first, head, self⟩ := Option.map_eq_some_iff.mp same
      rw [keeps.eq_iff (by simp [reservedWords])] at self
      exact own (self ▸ head)
    rw [ofPath_other _ _ own, ofPath_other _ _ other]
    exact along segments

/-! ### Collecting -/

theorem paths_rename (tree : Tree) : paths (tree.rename σ) = (paths tree).map (Tree.rename σ) := by
  induction tree using Tree.byChildren with
  | token t => rfl
  | node kind children ih =>
      have below : pathsAll (children.map (Tree.rename σ)) = (pathsAll children).map (Tree.rename σ) := by
        rw [pathsAll_eq_flatMap, pathsAll_eq_flatMap, List.flatMap_map, List.map_flatMap]
        exact List.flatMap_congr ih
      rw [Tree.rename_node]
      by_cases invocation : kind = .invocation
      · subst invocation
        rfl
      by_cases path : kind = .path
      · subst path
        rw [paths, paths, below, List.map_cons, Tree.rename_node]
      · rw [paths, paths, below] <;> assumption

theorem isRelative_rename (keeps : Keeps σ) (segment : String) : isRelative (σ segment) = isRelative segment := by
  have here : σ segment = "self" ↔ segment = "self" := keeps.eq_iff (by simp [reservedWords])
  have up : σ segment = "super" ↔ segment = "super" := keeps.eq_iff (by simp [reservedWords])
  rw [Bool.eq_iff_iff]
  simp only [isRelative, Bool.or_eq_true, beq_iff_eq, here, up]

end Import

theorem WellKnown.isPrelude_rename (keeps : Keeps σ) (name : String) :
    WellKnown.isPrelude (σ name) = WellKnown.isPrelude name := by
  have listed : ∀ name, WellKnown.isPrelude name = (WellKnown.everywhere ++ WellKnown.primitives.map Prod.fst ++
      WellKnown.preludeDefaultable ++ WellKnown.preludeWithoutDefault ++ WellKnown.preludeNoType).contains name := by
    intro name
    have primitive : (WellKnown.primitives.lookup name).isSome = (WellKnown.primitives.map Prod.fst).contains name := by
      induction WellKnown.primitives with
      | nil => rfl
      | cons first rest ih =>
          rw [List.lookup_cons, List.map_cons, List.contains_cons, ← ih]
          cases name == first.1 <;> rfl
    rw [List.contains_append, List.contains_append, List.contains_append, List.contains_append, ← primitive]
    rfl
  rw [listed, listed]
  refine keeps.contains (fun word member => ?_) name
  simp only [reservedWords, WellKnown.names, List.mem_append, List.mem_cons] at member ⊢
  tauto

namespace Import

theorem needsImport_rename (keeps : Keeps σ) (parameters : List String) (path : Tree) :
    needsImport (parameters.map σ) (path.rename σ) = needsImport parameters path := by
  have first : (path.names.map σ).find? (fun name => !isRelative name) =
      (path.names.find? fun name => !isRelative name).map σ := by
    rw [List.find?_map]
    exact congrArg (Option.map σ) (congrArg (List.find? · _) (funext fun name => congrArg not (isRelative_rename keeps name)))
  simp only [needsImport, Tree.names_rename σ keeps.blank, List.head?_map, first, Tree.isRootPath_rename]
  cases path.names.head? with
  | none => rfl
  | some head =>
      cases path.names.find? fun name => !isRelative name with
      | none => rfl
      | some own =>
          simp only [Option.map_some, σ.injective.eq_iff, WellKnown.isPrelude_rename keeps, List.contains_rename]

theorem needed_rename (keeps : Keeps σ) (catalog : Catalog) (module : ModulePath) (signature : Tree) :
    needed (catalog.rename σ) (module.map σ) (signature.rename σ) =
      (needed catalog module signature).map (ImportPath.rename σ) := by
  have along : ∀ parameters, ((paths (signature.rename σ)).filter (needsImport (parameters.map σ))).filterMap
        (fun path => ofPath (catalog.rename σ) (module.map σ) path.names) =
      (((paths signature).filter (needsImport parameters)).filterMap fun path => ofPath catalog module path.names).map
        (ImportPath.rename σ) := by
    intro parameters
    rw [paths_rename, List.filter_map, List.filterMap_map, List.map_filterMap]
    have kept : needsImport (parameters.map σ) ∘ Tree.rename σ = needsImport parameters :=
      funext fun path => needsImport_rename keeps parameters path
    rw [kept]
    refine List.filterMap_congr fun path _ => ?_
    rw [Function.comp_apply, Tree.names_rename σ keeps.blank, ofPath_rename keeps]
  rw [needed, needed, Tree.asSignature?_rename]
  cases signature.asSignature? with
  | none => exact along []
  | some view =>
      have own : (view.generics.parameters.map (Tree.rename σ)).filterMap Tree.parameterName? =
          (view.generics.parameters.filterMap Tree.parameterName?).map σ := by
        rw [List.filterMap_map, List.map_filterMap]
        exact List.filterMap_congr fun parameter _ => Tree.parameterName?_rename σ parameter
      simp only [Option.map_some, Signature.rename, Tree.parameters_rename, own]
      exact along _

/-! ### Moving paths -/

theorem enclosed_rename (children : List Tree) : enclosed (children.map (Tree.rename σ)) = enclosed children := by
  have closing : Tree.isPunct ">" ∘ Tree.rename σ = Tree.isPunct ">" := funext fun tree => Tree.isPunct_rename σ ">" tree
  have inner : (fun tree : Tree => !tree.isPunct ">") ∘ Tree.rename σ = fun tree : Tree => !tree.isPunct ">" :=
    funext fun tree => congrArg not (Tree.isPunct_rename σ ">" tree)
  have segment : ∀ tree : Tree, ((tree.rename σ).kind? == some .segment) = (tree.kind? == some .segment) :=
    fun tree => by rw [Tree.kind?_rename]
  rw [enclosed, enclosed, List.any_map, closing, List.takeWhile_map, inner, Tree.filter_rename σ segment, List.length_map]

theorem join_rename (closing : Option Nat) (segments : List Tree) :
    join closing (segments.map (Tree.rename σ)) = (join closing segments).map (Tree.rename σ) := by
  have separated : (segments.map (Tree.rename σ)).intersperse (Tree.punct "::") =
      (segments.intersperse (Tree.punct "::")).map (Tree.rename σ) :=
    (Tree.map_intersperse (Tree.rename σ) (Tree.punct "::") segments).symm
  cases closing with
  | none => exact separated
  | some count =>
      simp only [join, separated, List.length_map, List.map_append, List.map_cons, List.map_take, List.map_drop,
        Tree.rename_punct]

theorem movedSegments_rename (keeps : Keeps σ) (catalog : Catalog) (module : ModulePath) (segments : List Tree) :
    movedSegments (catalog.rename σ) (module.map σ) (segments.map (Tree.rename σ)) =
      (movedSegments catalog module segments).map (Tree.rename σ) := by
  have names : (segments.map (Tree.rename σ)).map Tree.segmentName = (segments.map Tree.segmentName).map σ := by
    rw [List.map_map, List.map_map]
    exact List.map_congr_left fun segment _ => Tree.segmentName_rename σ keeps.blank segment
  have relative : isRelative ∘ σ = isRelative := funext (isRelative_rename keeps)
  have leading : (((segments.map Tree.segmentName).map σ).takeWhile isRelative).length =
      ((segments.map Tree.segmentName).takeWhile isRelative).length := by
    generalize segments.map Tree.segmentName = names
    rw [List.takeWhile_map, relative, List.length_map]
  have written : ∀ names : List String, (names.map σ).map (fun name => Tree.node .segment [Tree.ident name]) =
      (names.map fun name => Tree.node .segment [Tree.ident name]).map (Tree.rename σ) := by
    intro names
    rw [List.map_map, List.map_map]
    exact List.map_congr_left fun name _ => (Tree.rename_node σ .segment [Tree.ident name]).symm
  simp only [movedSegments, names, ofPath_rename keeps, leading]
  cases ofPath catalog module (segments.map Tree.segmentName) with
  | none => rfl
  | some found =>
      generalize ((segments.map Tree.segmentName).takeWhile isRelative).length = leading
      have kept : (found.segments.map σ).getLast? = ((segments.map Tree.segmentName).map σ)[leading]? ↔
          found.segments.getLast? = (segments.map Tree.segmentName)[leading]? := by
        rw [List.getLast?_map, List.getElem?_map]
        exact (Option.map_injective σ.injective).eq_iff
      simp only [Option.map_some, ImportPath.rename, kept]
      rw [List.map_append, ← written, List.map_drop]
      split
      · simp only [List.map_dropLast]
      · rfl

theorem movePath_rename (keeps : Keeps σ) (catalog : Catalog) (module : ModulePath) (children : List Tree) :
    movePath (catalog.rename σ) (module.map σ) (children.map (Tree.rename σ)) =
      (movePath catalog module children).map (Tree.rename σ) := by
  have path : Tree.node .path (children.map (Tree.rename σ)) = (Tree.node .path children).rename σ :=
    (Tree.rename_node σ .path children).symm
  have relative : ((Tree.node .path children).names.map σ).head?.map isRelative =
      (Tree.node .path children).names.head?.map isRelative := by
    rw [List.head?_map, Option.map_map]
    exact congrArg (Option.map · _) (funext (isRelative_rename keeps))
  simp only [movePath, path, Tree.isRootPath_rename, Tree.names_rename σ keeps.blank, relative, Tree.segments_rename,
    enclosed_rename, movedSegments_rename keeps, join_rename]
  split <;> simp

/-- The moved paths of a tree, renamed, are those of the renamed tree. -/
theorem rebase_rename (keeps : Keeps σ) (catalog : Catalog) (module : ModulePath) (tree : Tree) :
    rebase (catalog.rename σ) (module.map σ) (tree.rename σ) = (rebase catalog module tree).rename σ := by
  induction tree using Tree.byChildren with
  | token t => rfl
  | node kind children ih =>
      have below : rebaseAll (catalog.rename σ) (module.map σ) (children.map (Tree.rename σ)) =
          (rebaseAll catalog module children).map (Tree.rename σ) := by
        rw [rebaseAll_eq_map, rebaseAll_eq_map, List.map_map, List.map_map]
        exact List.map_congr_left ih
      rw [Tree.rename_node]
      by_cases invocation : kind = .invocation
      · subst invocation
        exact (Tree.rename_node σ .invocation children).symm
      by_cases path : kind = .path
      · subst path
        rw [rebase, rebase, below, movePath_rename keeps, Tree.rename_node]
      · rw [rebase, rebase, below, Tree.rename_node] <;> assumption

end Import

end TestDouble
