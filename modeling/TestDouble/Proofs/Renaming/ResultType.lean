import TestDouble.Proofs.Renaming.Catalog
import TestDouble.Proofs.Source.Parts
import TestDouble.ResultType
/-!
# Renaming and result types

The values of a renamed result type are produced as those of the type are, and it has no default value for the
same reason. A reason may quote the type, and a quotation is the same only if the renaming leaves what is quoted
alone.
-/

namespace TestDouble

/-- That two results hold related values, or are both errors: the same one if what errors quote stays. -/
inductive Agree {ε α β : Type} (still : Prop) (related : α → β → Prop) : Except ε α → Except ε β → Prop where
  | ok {value : α} {value' : β} (same : related value value') : Agree still related (.ok value) (.ok value')
  | error {fault fault' : ε} (same : still → fault = fault') : Agree still related (.error fault) (.error fault')

/-- That nothing which is generated from descriptors tells them apart. -/
structure Descriptor.Alike (descriptor other : Descriptor) : Prop where
  isNoValue : other.isNoValue = descriptor.isNoValue
  defaultValue? : other.defaultValue? = descriptor.defaultValue?
  constant? : ∀ value, other.constant? value = descriptor.constant? value

variable {σ : Equiv.Perm String}

theorem WellKnown.find?_rename (keeps : Keeps σ) (name : String) : WellKnown.find? (σ name) = WellKnown.find? name := by
  have unknown : ∀ name, name ∉ WellKnown.names → WellKnown.find? name = none := by
    intro name other
    simp only [WellKnown.names, List.mem_append, List.mem_cons, not_or] at other
    obtain ⟨⟨⟨⟨⟨⟨⟨_, notPrimitive⟩, notDuration, notPrelude⟩, notDefaultable⟩, notResult⟩, notWithout⟩, notUsual⟩,
      notNamed⟩ := other
    have primitive : WellKnown.primitives.lookup name = none := by
      rw [List.lookup_eq_none_iff]
      intro entry member
      exact bne_iff_ne.mpr fun same => notPrimitive (List.mem_map.mpr ⟨entry, member, same.symm⟩)
    have absent : ∀ words : List String, name ∉ words → words.contains name = false := by
      intro words outside
      rw [Bool.eq_false_iff, ne_eq, List.contains_iff_mem]
      exact outside
    rw [WellKnown.find?, primitive]
    simp only [absent _ notPrelude, absent _ notDefaultable, absent _ notResult, absent _ notWithout, absent _ notUsual,
      absent _ notNamed, if_neg notDuration]
    rfl
  by_cases known : name ∈ WellKnown.names
  · rw [keeps name (List.mem_append_right _ known)]
  · have other : σ name ∉ WellKnown.names := mt (keeps.mem_iff (List.subset_append_right _ _)).mp known
    rw [unknown name known, unknown _ other]

namespace Descriptor

theorem Alike.refl (descriptor : Descriptor) : descriptor.Alike descriptor := ⟨rfl, rfl, fun _ => rfl⟩

theorem named_alike (path path' : String) (origin : Origin) : (named path origin).Alike (named path' origin) :=
  ⟨rfl, rfl, fun _ => rfl⟩

theorem unplaced_alike (spelling spelling' : String) : (unplaced spelling).Alike (unplaced spelling') :=
  ⟨rfl, rfl, fun _ => rfl⟩

theorem tuple_alike (elements elements' : List Descriptor) : (tuple elements).Alike (tuple elements') :=
  ⟨rfl, rfl, fun _ => rfl⟩

end Descriptor

namespace ResultType
open Descriptor

variable {still : Prop}

theorem ofKnown_agree {written written' : String} (quoted : still → written = written') (known : Known) :
    Agree still Alike (ofKnown written known) (ofKnown written' known) := by
  cases known with
  | builtin descriptor => exact .ok (.refl descriptor)
  | defaultable => exact .ok (named_alike _ _ _)
  | withoutDefault => exact .error fun stays => congrArg TypeFault.withoutDefault (quoted stays)
  | noType => exact .error fun stays => congrArg TypeFault.notAType (quoted stays)

theorem ofName_agree (keeps : Keeps σ) (name : String) {written written' : String} (quoted : still → written = written') :
    Agree still Alike (ofName name written) (ofName (σ name) written') := by
  rw [ofName, ofName, WellKnown.find?_rename keeps]
  cases WellKnown.find? name with
  | some known => exact ofKnown_agree quoted known
  | none => exact .ok (unplaced_alike _ _)

theorem ofImport_agree (keeps : Keeps σ) (path : List String) (last : String) {written written' : String}
    (quoted : still → written = written') :
    Agree still Alike (ofImport path last written) (ofImport (path.map σ) (σ last) written') := by
  have standard : ((path.map σ).head?.map WellKnown.standardCrates.contains).getD false =
      (path.head?.map WellKnown.standardCrates.contains).getD false := by
    rw [List.head?_map, Option.map_map]
    refine congrArg (fun contains => (Option.map contains path.head?).getD false) (funext fun name => ?_)
    refine keeps.contains ?_ name
    simp [WellKnown.standardCrates, reservedWords, WellKnown.names, WellKnown.everywhere]
  have known : WellKnown.find? ((path.map σ).getLast?.getD (σ last)) = WellKnown.find? (path.getLast?.getD last) := by
    rw [List.getLast?_map, ← WellKnown.find?_rename keeps (path.getLast?.getD last)]
    cases path.getLast? <;> rfl
  simp only [ofImport, standard, known]
  cases (if (path.head?.map WellKnown.standardCrates.contains).getD false then
      WellKnown.find? (path.getLast?.getD last) else none) with
  | some known => exact ofKnown_agree quoted known
  | none => exact .ok (named_alike _ _ _)

/-- That the renaming leaves the types alone which aliases stand for. -/
def QuietAliases (still : Prop) (σ : Equiv.Perm String) (catalog : Catalog) : Prop :=
  still → ∀ module names place name target,
    catalog.resolve module names = some (.type place name (some target)) → target.rename σ = target

theorem ofPath_agree (keeps : Keeps σ) (catalog : Catalog) (module : ModulePath) (path : Tree)
    (quiet : still → path.rename σ = path) {follow follow' : ModulePath → Tree → Except TypeFault Descriptor}
    (along : ∀ place name target, catalog.resolve module path.names = some (.type place name (some target)) →
      Agree still Alike (follow place target) (follow' (place.map σ) (target.rename σ))) :
    Agree still Alike (ofPath catalog module path follow)
      (ofPath (catalog.rename σ) (module.map σ) (path.rename σ) follow') := by
  have names := Tree.names_rename σ keeps.blank path
  have quoted : still → "::".intercalate path.names = "::".intercalate (path.rename σ).names :=
    fun stays => by rw [quiet stays]
  rw [names] at quoted
  have standard : ∀ name, WellKnown.standardCrates.contains (σ name) = WellKnown.standardCrates.contains name :=
    keeps.contains (by simp [WellKnown.standardCrates, reservedWords, WellKnown.names, WellKnown.everywhere])
  have own : ∀ name, σ name = "Self" ↔ name = "Self" := fun name => keeps.eq_iff (by simp [reservedWords])
  simp only [ofPath, names, List.head?_map, List.getLast?_map, Tree.isRootPath_rename, Catalog.resolve_rename keeps]
  cases path.names.head? with
  | none => exact .error fun _ => rfl
  | some first =>
      cases path.names.getLast? with
      | none => exact .error fun _ => rfl
      | some last =>
          simp only [Option.map_some, own, standard]
          split
          · exact .error fun _ => rfl
          · split
            · exact ofName_agree keeps last quoted
            · cases found : catalog.resolve module path.names with
              | none => exact ofName_agree keeps last quoted
              | some target =>
                  cases target with
                  | trait place item => exact .error fun stays => congrArg TypeFault.notAType (quoted stays)
                  | module place => exact .error fun stays => congrArg TypeFault.notAType (quoted stays)
                  | external place name written => exact ofImport_agree keeps written last quoted
                  | type place name aliased =>
                      cases aliased with
                      | none => exact .ok (named_alike _ _ _)
                      | some target => exact along place name target found

theorem ofReferent_rename (keeps : Keeps σ) (mutable : Bool) (referent : Tree) :
    ofReferent mutable (referent.rename σ) = ofReferent mutable referent := by
  have other : ∀ referent : Tree, referent.kind? ≠ some .typeSlice → ofReferent mutable referent =
      if mutable then .error .mutableReference
      else if (referent.asPath?.bind Tree.onlyName?) = some "str" then .ok (.str false)
      else .error .otherReference := by
    intro referent noSlice
    unfold ofReferent
    split
    · rfl
    · split
      · exact absurd rfl noSlice
      · rfl
  have name : ((referent.rename σ).asPath?.bind Tree.onlyName?) = some "str" ↔
      (referent.asPath?.bind Tree.onlyName?) = some "str" := by
    have renamed : ((referent.rename σ).asPath?.bind Tree.onlyName?) =
        (referent.asPath?.bind Tree.onlyName?).map σ := by
      rw [Tree.asPath?_rename, Option.bind_map, Option.map_bind]
      exact Option.bind_congr fun path _ => Tree.onlyName?_rename σ keeps.blank path
    conv => lhs; rw [renamed, ← keeps "str" (by simp [reservedWords]), ← Option.map_some]
    exact (Option.map_injective σ.injective).eq_iff
  by_cases slice : referent.kind? = some .typeSlice
  · cases referent with
    | token t => cases slice
    | node kind children =>
        cases slice
        rw [Tree.rename_node]
        rfl
  · rw [other _ slice, other _ (by rwa [Tree.kind?_rename])]
    simp only [name]

theorem mapM_agree {resolve resolve' : Tree → Except TypeFault Descriptor} {elements : List Tree}
    (each : ∀ element ∈ elements, Agree still Alike (resolve element) (resolve' (element.rename σ))) :
    Agree still (fun _ _ => True) (elements.mapM resolve) ((elements.map (Tree.rename σ)).mapM resolve') := by
  induction elements with
  | nil => exact .ok trivial
  | cons first rest ih =>
      have own := each first List.mem_cons_self
      have later := ih fun element member => each element (List.mem_cons_of_mem _ member)
      rw [List.map_cons, List.mapM_cons, List.mapM_cons]
      generalize resolve first = result, resolve' (first.rename σ) = result' at own
      generalize rest.mapM resolve = results, (rest.map (Tree.rename σ)).mapM resolve' = results' at later
      cases own with
      | error same => exact .error same
      | ok _ =>
          cases later with
          | error same => exact .error same
          | ok _ => exact .ok trivial

theorem mapM_tuple_agree {resolve resolve' : Tree → Except TypeFault Descriptor} {elements : List Tree}
    (each : ∀ element ∈ elements, Agree still Alike (resolve element) (resolve' (element.rename σ))) :
    Agree still Alike ((elements.mapM resolve).map .tuple)
      (((elements.map (Tree.rename σ)).mapM resolve').map .tuple) := by
  have all := mapM_agree each
  generalize elements.mapM resolve = results, (elements.map (Tree.rename σ)).mapM resolve' = results' at all
  cases all with
  | error same => exact .error same
  | ok _ => exact .ok (tuple_alike _ _)

/-- Whether a type has one of the forms that are read at all. -/
def isRead : Tree → Bool
  | .node .typeTuple [_] | .node .typeParen [.node (.group .paren) [_]] | .node .typeReference [_, _, _, _]
  | .node .typePath [_] | .node .typeArray _ | .node .typeImpl _ | .node .typeNever _ | .node .typePointer _
  | .node .typeFunction _ | .node .typeObject _ | .node .typeSlice _ => true
  | _ => false

theorem isRead_rename (type : Tree) : isRead (type.rename σ) = isRead type := by
  refine Tree.bool_rename σ (fun σ tree holds => ?_) type
  unfold isRead at holds
  split at holds
  all_goals first
    | rw [Tree.rename_node]
      simp only [Tree.rename_node, List.map_cons, List.map_nil, isRead]
    | cases holds

theorem resolveWithin_unread {type : Tree} (unread : isRead type = false) (catalog : Catalog) (fuel : Nat)
    (module : ModulePath) : resolveWithin catalog (fuel + 1) module type = .error .unsupported := by
  unfold resolveWithin
  split
  all_goals first
    | rfl
    | cases unread

/-- Descriptors of a renamed type and of the type agree. -/
theorem resolveWithin_agree (keeps : Keeps σ) {catalog : Catalog} (aliases : QuietAliases still σ catalog) (fuel : Nat)
    (module : ModulePath) (type : Tree) (quiet : still → type.rename σ = type) :
    Agree still Alike (resolveWithin catalog fuel module type)
      (resolveWithin (catalog.rename σ) fuel (module.map σ) (type.rename σ)) := by
  induction fuel generalizing module type with
  | zero => exact .error fun _ => rfl
  | succ fuel ih =>
      have inner : ∀ part ∈ type.subtrees, Agree still Alike (resolveWithin catalog fuel module part)
          (resolveWithin (catalog.rename σ) fuel (module.map σ) (part.rename σ)) :=
        fun part inside => ih module part fun stays => Tree.rename_part (quiet stays) inside
      by_cases read : isRead type = true
      swap
      · have unread := Bool.eq_false_iff.mpr read
        rw [resolveWithin_unread unread, resolveWithin_unread ((isRead_rename type).trans unread)]
        exact .error fun _ => rfl
      unfold isRead at read
      split at read
      · rename_i group
        simp only [resolveWithin, Tree.rename_node, List.map_cons, List.map_nil, Tree.elements_rename]
        cases listed : group.elements with
        | nil => exact .ok (.refl _)
        | cons first rest =>
            refine mapM_tuple_agree fun element member => inner element ?_
            exact Tree.subtrees_child List.mem_cons_self (Tree.elements_subset group (listed ▸ member))
      · rename_i part
        simp only [resolveWithin, Tree.rename_node, List.map_cons, List.map_nil]
        refine inner part (Tree.subtrees_child List.mem_cons_self ?_)
        exact Tree.mem_subtrees_child List.mem_cons_self
      · rename_i mutability referent
        simp only [resolveWithin, Tree.rename_node, List.map_cons, List.map_nil, Tree.isAbsent_rename,
          ofReferent_rename keeps]
        cases ofReferent (!mutability.isAbsent) referent with
        | error fault => exact .error fun _ => rfl
        | ok descriptor => exact .ok (.refl descriptor)
      · rename_i path
        rw [Tree.rename_node, List.map_singleton]
        by_cases qualified : path.kind? = some .qualified
        · cases path with
          | token t => cases qualified
          | node kind children =>
              cases qualified
              rw [Tree.rename_node]
              exact .error fun _ => rfl
        · rw [resolveWithin_path _ _ _ qualified, resolveWithin_path _ _ _ (by rwa [Tree.kind?_rename])]
          refine ofPath_agree keeps catalog module path
            (fun stays => Tree.rename_part (quiet stays) (Tree.mem_subtrees_child List.mem_cons_self)) ?_
          exact fun place name target found => ih place target fun stays => aliases stays _ _ _ _ _ found
      · rw [Tree.rename_node]
        exact .ok (unplaced_alike _ _)
      -- types of the other forms are refused, whatever is in them
      all_goals first
        | rw [Tree.rename_node]
          exact .error fun _ => rfl
        | cases read

theorem ofSignature_agree (keeps : Keeps σ) {catalog : Catalog} (aliases : QuietAliases still σ catalog)
    (module : ModulePath) (signature : Tree)
    (quiet : still → ∀ type, signature.resultType? = some type → type.rename σ = type) :
    Agree still Alike (ofSignature catalog module signature)
      (ofSignature (catalog.rename σ) (module.map σ) (signature.rename σ)) := by
  rw [ofSignature, ofSignature, Tree.resultType?_rename]
  cases found : signature.resultType? with
  | none => exact .ok (.refl _)
  | some type => exact resolveWithin_agree keeps aliases maxDepth module type fun stays => quiet stays type found

/-! ### Borrowing -/

theorem borrows_rename (tree : Tree) : borrows (tree.rename σ) = borrows tree := by
  refine Tree.bool_rename σ (fun σ tree holds => ?_) tree
  induction tree using Tree.byChildren with
  | token t => cases holds
  | node kind children ih =>
      rw [Tree.rename_node]
      unfold borrows at holds
      split at holds
      · cases holds
      · cases holds
      · cases holds
      · rename_i same
        cases same
        rfl
      · rename_i same
        cases same
        exact holds
      · rename_i noUnread noArguments noReference noLifetime same
        cases same
        have below : anyBorrows (children.map (Tree.rename σ)) = true := by
          rw [anyBorrows_eq_any, List.any_eq_true] at holds ⊢
          obtain ⟨child, member, borrowed⟩ := holds
          exact ⟨child.rename σ, List.mem_map_of_mem member, ih child member borrowed⟩
        unfold borrows
        split
        · rename_i same
          cases same
        · rename_i same
          cases same
          exact absurd rfl noUnread
        · rename_i same
          cases same
          exact absurd rfl noArguments
        · rfl
        · rename_i name same
          obtain ⟨rfl, renamed⟩ := Tree.node.inj same
          obtain ⟨child, rfl, own⟩ := List.map_eq_singleton_iff.mp renamed
          have back : child = .token (.lifetime name) := by
            rw [← Tree.rename_symm σ child, own]
            rfl
          exact absurd (congrArg (fun child => [child]) back) (noLifetime name rfl)
        · rename_i same
          cases same
          exact below

theorem isBorrowed_rename (signature : Tree) : isBorrowed (signature.rename σ) = isBorrowed signature := by
  rw [isBorrowed, isBorrowed, Tree.resultType?_rename]
  cases signature.resultType? with
  | none => rfl
  | some type => exact borrows_rename type

end ResultType

end TestDouble
