import TestDouble.Proofs.Catalog.Importing
import TestDouble.Proofs.Source.Plain
import TestDouble.ResultType
/-!
# Types behind an import

A type from outside may be written in full, or be led to by an import of the path or of a part of it. Written in full
it is known by its last name. Behind an import it is known by the last name of the import instead, and only if this
one begins with a crate of the standard library; so the two are treated alike only if these names are.
-/

namespace TestDouble

/-- That values are produced alike for two descriptors: by default, and from constants. -/
def Descriptor.Interchangeable (left right : Descriptor) : Prop :=
  left.defaultValue? = right.defaultValue? ∧
    ∀ value, (left.constant? value).isSome = (right.constant? value).isSome

namespace ResultType

/-- That two types are both rejected, or both accepted with the same default value and the same constants. -/
def Interchangeable : Except TypeFault Descriptor → Except TypeFault Descriptor → Prop
  | .error _, .error _ => True
  | .ok left, .ok right => left.Interchangeable right
  | _, _ => False

/-! ### How known names are treated -/

/-- How a type of a name is treated: not accepted, by a descriptor of its own, or like any type without one. -/
def treatment : Option Known → Option (Option Descriptor)
  | some .withoutDefault | some .noType => none
  | some (.builtin descriptor) => some (some descriptor)
  | some .defaultable | none => some none

def SameTreatment : Option (Option Descriptor) → Option (Option Descriptor) → Prop
  | none, none => True
  | some none, some none => True
  | some (some left), some (some right) => left.Interchangeable right
  | _, _ => False

theorem SameTreatment.refl (treated : Option (Option Descriptor)) : SameTreatment treated treated := by
  rcases treated with _ | _ | descriptor
  · trivial
  · trivial
  · exact ⟨rfl, fun _ => rfl⟩

/-- That a result treats a type in some way. -/
inductive Treats : Except TypeFault Descriptor → Option (Option Descriptor) → Prop where
  | rejected (fault : TypeFault) : Treats (.error fault) none
  | usual {descriptor : Descriptor} (default : descriptor.defaultValue? = some Descriptor.anyDefault)
      (constants : ∀ value, descriptor.constant? value = none) : Treats (.ok descriptor) (some none)
  | special {descriptor : Descriptor} (other : descriptor.defaultValue? ≠ some Descriptor.anyDefault) :
      Treats (.ok descriptor) (some (some descriptor))

theorem Treats.interchangeable_iff {left right : Except TypeFault Descriptor}
    {treated other : Option (Option Descriptor)} (first : Treats left treated) (second : Treats right other) :
    Interchangeable left right ↔ SameTreatment treated other := by
  cases first with
  | rejected fault =>
      cases second with
      | rejected => exact Iff.rfl
      | usual => exact Iff.rfl
      | special => exact Iff.rfl
  | usual default constants =>
      cases second with
      | rejected => exact Iff.rfl
      | usual default' constants' =>
          refine ⟨fun _ => trivial, fun _ => ⟨default.trans default'.symm, fun value => ?_⟩⟩
          rw [constants, constants']
      | special different => exact ⟨fun same => different (same.1.symm.trans default), False.elim⟩
  | special different =>
      cases second with
      | rejected => exact Iff.rfl
      | usual default => exact ⟨fun same => different (same.1.trans default), False.elim⟩
      | special => exact Iff.rfl

/-- The default value of a type with a descriptor of its own is not that of any type. -/
theorem default_of_builtin {name : String} {descriptor : Descriptor}
    (found : WellKnown.find? name = some (.builtin descriptor)) :
    descriptor.defaultValue? ≠ some Descriptor.anyDefault := by
  have listed : ∀ entry ∈ ("Duration", .duration) :: WellKnown.primitives,
      entry.2.defaultValue?.map Tree.tokensAll ≠ some (Tree.tokensAll Descriptor.anyDefault) := by decide +kernel
  have inside : ∃ own, (own, descriptor) ∈ ("Duration", .duration) :: WellKnown.primitives := by
    unfold WellKnown.find? at found
    split at found
    · rename_i own
      cases found
      exact ⟨name, List.mem_cons_of_mem _ (Catalog.mem_of_lookup own)⟩
    · split at found
      · cases found
        exact ⟨_, List.mem_cons_self⟩
      · split at found
        · cases found
        · split at found
          · cases found
          · split at found <;> cases found
  obtain ⟨own, member⟩ := inside
  intro same
  exact listed _ member (congrArg (Option.map Tree.tokensAll) same)

theorem treats_named (path : String) (origin : Origin) : Treats (.ok (.named path origin)) (some none) :=
  .usual rfl fun _ => rfl

theorem treats_ofKnown {name : String} {known : Known} (found : WellKnown.find? name = some known) (written : String) :
    Treats (ofKnown written known) (treatment (some known)) := by
  cases known with
  | builtin descriptor => exact .special (default_of_builtin found)
  | defaultable => exact treats_named written .wellKnown
  | withoutDefault => exact .rejected _
  | noType => exact .rejected _

theorem treats_ofName (name written : String) : Treats (ofName name written) (treatment (WellKnown.find? name)) := by
  unfold ofName
  cases found : WellKnown.find? name with
  | none => exact .usual rfl fun _ => rfl
  | some known => exact treats_ofKnown found written

/-- Behind an import only the last name of the import counts, if it is from the standard library. -/
theorem treats_ofImport (first : String) (above : List String) (own last written : String) :
    Treats (ofImport (first :: (above ++ [own])) last written)
      (treatment (if first ∈ WellKnown.standardCrates then WellKnown.find? own else none)) := by
  have ends : (first :: (above ++ [own])).getLast? = some own := by
    rw [← List.cons_append, List.getLast?_concat]
  unfold ofImport
  rw [ends, List.head?_cons, Option.map_some, Option.getD_some, Option.getD_some]
  dsimp only
  by_cases standard : first ∈ WellKnown.standardCrates
  · rw [if_pos standard, if_pos (List.contains_iff_mem.mpr standard)]
    cases found : WellKnown.find? own with
    | none => exact treats_named written .imported
    | some known => exact treats_ofKnown found written
  · rw [if_neg standard, if_neg fun contained => standard (List.contains_iff_mem.mp contained)]
    exact treats_named written .imported

/-! ### Types from outside -/

variable {catalog : Catalog} {place : ModulePath} {path : Tree} {first last : String} {rest : List String}

/-- A type that leads nowhere is known by its last name. -/
theorem treats_unplaced (names : path.names = first :: rest) (ends : (first :: rest).getLast? = some last)
    (ordinary : first ≠ "Self") (missing : catalog.resolve place (first :: rest) = none) :
    Treats (resolve catalog place (.node .typePath [path])) (treatment (WellKnown.find? last)) := by
  rw [resolve, maxDepth, resolveWithin_names _ _ _ names, ofPath, names, List.head?_cons, ends]
  dsimp only
  rw [if_neg ordinary]
  split
  · exact treats_ofName _ _
  · rw [missing]
    exact treats_ofName _ _

/-- A type that leads to an import is known by the last name of the import, unless it begins with a standard crate. -/
theorem treats_external (names : path.names = first :: rest) (ends : (first :: rest).getLast? = some last)
    (unrooted : path.isRootPath = false) (ordinary : first ≠ "Self") {module : ModulePath} {bound crate own : String}
    {above : List String}
    (found : catalog.resolve place (first :: rest) = some (.external module bound (crate :: (above ++ [own])))) :
    Treats (resolve catalog place (.node .typePath [path]))
      (treatment (if first ∈ WellKnown.standardCrates then WellKnown.find? last
        else if crate ∈ WellKnown.standardCrates then WellKnown.find? own else none)) := by
  rw [resolve, maxDepth, resolveWithin_names _ _ _ names, ofPath, names, List.head?_cons, ends]
  dsimp only
  rw [if_neg ordinary, unrooted, Bool.false_or]
  by_cases standard : first ∈ WellKnown.standardCrates
  · rw [if_pos standard, if_pos (List.contains_iff_mem.mpr standard)]
    exact treats_ofName _ _
  · rw [if_neg standard, if_neg fun contained => standard (List.contains_iff_mem.mp contained), found]
    exact treats_ofImport _ _ _ _ _

open Catalog

/--
How a type behind an import compares with the type written in full where the import is missing. The path is absolute:
its first name stands for nothing in the module. Both are rejected, or accepted with the same default value and the
same constants, exactly if the imported name is that of a crate of the standard library, or if the last name of
the import, where this one begins with such a crate, is treated like the last name of the type. They always are if what
is imported from the standard library is the type itself.
-/
theorem resolve_imported {root : String} {items larger : List Tree} {added : Tree} {place : ModulePath}
    {crate own : String} {above : List String} (binds : added.bindings = [.named own (crate :: (above ++ [own]))])
    (enlarged : Enlarged added place items larger) (apart : (ofItems root items).Apart)
    (free : ∀ scope, (ofItems root items).scope? place = some scope →
      declaredIn place scope own = none ∧ scope.imports.lookup own = none)
    (plain : own ∉ "Self" :: Name.anchors) (absolute : crate ∉ ["Self", "self", "super"])
    (missing : (ofItems root items).resolve place [crate] = none) {short full : Tree} {rest : List String}
    {last : String} (shortNames : short.names = own :: rest) (unrooted : short.isRootPath = false)
    (fullNames : full.names = crate :: (above ++ own :: rest)) (ends : (own :: rest).getLast? = some last) :
    (Interchangeable (resolve (ofItems root larger) place (.node .typePath [short]))
        (resolve (ofItems root items) place (.node .typePath [full])) ↔
      own ∈ WellKnown.standardCrates ∨
        SameTreatment (treatment (if crate ∈ WellKnown.standardCrates then WellKnown.find? own else none))
          (treatment (WellKnown.find? last))) ∧
      (rest = [] → crate ∈ WellKnown.standardCrates →
        Interchangeable (resolve (ofItems root larger) place (.node .typePath [short]))
          (resolve (ofItems root items) place (.node .typePath [full]))) := by
  simp only [List.mem_cons, List.not_mem_nil, or_false, not_or] at plain absolute
  obtain ⟨notOwnType, anchored⟩ := plain
  obtain ⟨notSelfType, notSelf, notSuper⟩ := absolute
  have brings := brings_ofItems root binds enlarged apart fun scope found => (free scope found).2
  have outside : ∀ fuel ≤ maxImports, ∀ rest,
      (ofItems root items).resolveWithin fuel place (crate :: (above ++ [own]) ++ rest) = none :=
    fun fuel fewer rest => resolve_behind notSelf notSuper missing fewer _
  have nowhere : (ofItems root items).resolve place (crate :: (above ++ own :: rest)) = none :=
    resolve_behind notSelf notSuper missing (Nat.le_refl _) _
  have lastOf : (crate :: (above ++ own :: rest)).getLast? = some last := by
    rw [← List.cons_append, List.getLast?_append, ends]
    rfl
  have written := treats_unplaced fullNames lastOf notSelfType nowhere
  have undeclared := fun scope found => (free scope found).1
  have led := brings.resolve_own outside undeclared (by simpa [Name.anchors] using anchored) rest
  have imported := treats_external shortNames ends unrooted notOwnType led
  have same := imported.interchangeable_iff written
  have comparison : Interchangeable (resolve (ofItems root larger) place (.node .typePath [short]))
        (resolve (ofItems root items) place (.node .typePath [full])) ↔
      own ∈ WellKnown.standardCrates ∨
        SameTreatment (treatment (if crate ∈ WellKnown.standardCrates then WellKnown.find? own else none))
          (treatment (WellKnown.find? last)) := by
    rw [same]
    by_cases standard : own ∈ WellKnown.standardCrates
    · rw [if_pos standard]
      exact ⟨fun _ => .inl standard, fun _ => .refl _⟩
    · rw [if_neg standard]
      exact ⟨.inr, fun either => either.resolve_left standard⟩
  refine ⟨comparison, fun whole standard => comparison.mpr (.inr ?_)⟩
  subst whole
  cases ends
  rw [if_pos standard]
  exact .refl _

/-- A module that holds some imports, in the annotated module. -/
def importingItems (imports : List Tree) : List Tree := [Tree.inlineModule "wire" imports]

/-- A type that is imported itself is rejected like the type written in full. -/
theorem resolve_imported_instant :
    Interchangeable
      (resolve (ofItems "samples" (importingItems [Tree.plainImport ["std", "time"] "Instant"])) ["wire"]
        (Tree.namedType ["Instant"]))
      (resolve (ofItems "samples" (importingItems [])) ["wire"] (Tree.namedType ["std", "time", "Instant"])) := by
  have enlarged : Enlarged (Tree.plainImport ["std", "time"] "Instant") ["wire"] (importingItems [])
      (importingItems [Tree.plainImport ["std", "time"] "Instant"]) :=
    .inner Tree.noAttributes Tree.absent Tree.absent (Tree.ident "mod") "wire" Tree.noAttributes [] [] (.here [] [])
  have apart : (ofItems "samples" (importingItems [])).Apart := by decide
  have free : ∀ scope, (ofItems "samples" (importingItems [])).scope? ["wire"] = some scope →
      declaredIn ["wire"] scope "Instant" = none ∧ scope.imports.lookup "Instant" = none := by
    rintro scope ⟨⟩
    exact ⟨rfl, rfl⟩
  exact (@resolve_imported "samples" _ _ _ _ "std" "Instant" ["time"] rfl enlarged apart free (by decide) (by decide)
    rfl (Tree.plainPath ["Instant"]) (Tree.plainPath ["std", "time", "Instant"]) [] "Instant" rfl rfl rfl rfl).2 rfl
    (by decide)

/-- A type that is only led to by an import is accepted, although the type written in full is rejected. -/
theorem instant_accepted :
    Enlarged (Tree.plainImport ["std"] "time") ["wire"] (importingItems [])
        (importingItems [Tree.plainImport ["std"] "time"]) ∧
      (ofItems "samples" (importingItems [])).resolve ["wire"] ["std"] = none ∧
      resolve (ofItems "samples" (importingItems [Tree.plainImport ["std"] "time"])) ["wire"]
        (Tree.namedType ["time", "Instant"]) = .ok (.named "time::Instant" .imported) ∧
      resolve (ofItems "samples" (importingItems [])) ["wire"] (Tree.namedType ["std", "time", "Instant"]) =
        .error (.withoutDefault "std::time::Instant") ∧
      ¬Interchangeable
        (resolve (ofItems "samples" (importingItems [Tree.plainImport ["std"] "time"])) ["wire"]
          (Tree.namedType ["time", "Instant"]))
        (resolve (ofItems "samples" (importingItems [])) ["wire"] (Tree.namedType ["std", "time", "Instant"])) := by
  refine ⟨?_, rfl, rfl, rfl, id⟩
  exact .inner Tree.noAttributes Tree.absent Tree.absent (Tree.ident "mod") "wire" Tree.noAttributes [] [] (.here [] [])

end ResultType

end TestDouble
