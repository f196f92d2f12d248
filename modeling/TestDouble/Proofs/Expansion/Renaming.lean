import TestDouble.Proofs.Expansion.Registration
import TestDouble.Proofs.Expansion.Strays
import TestDouble.Proofs.Renaming.Generated
import TestDouble.Proofs.Renaming.Known
import TestDouble.Proofs.Source.Plain
/-!
# Expanding under other identifiers

Nothing looks for the dispatcher or for configurations under a fixed name. With both identifiers replaced by fresh
ones in the module and in the settings, the expansion succeeds or fails as before, and what it generates is replaced
alike. Two things are not replaced but made anew: imports are put in the order of the replaced paths, and messages
quote the source as it stands now.
-/

namespace TestDouble

/-- That the settings name two different identifiers that neither a module nor the analysis knows. -/
structure Settings.Fresh (settings : Settings) (module : Tree) : Prop where
  different : settings.dispatcher ≠ settings.returns
  dispatcher : settings.dispatcher ∉ module.identifiers ++ reservedWords
  returns : settings.returns ∉ module.identifiers ++ reservedWords

/-- That nothing is declared under an identifier that the analysis looks for by default. -/
def Tree.Free (module : Tree) : Prop :=
  ∀ part ∈ module.subtrees, part.declaredName? ≠ some ({} : Settings).dispatcher ∧
    part.declaredName? ≠ some ({} : Settings).returns

/-- That messages quote no part that holds an identifier which the analysis looks for by default. -/
def Tree.Unquoted (module : Tree) : Prop :=
  ∀ part ∈ module.subtrees, ∀ quoted ∈ part.quotedParts,
    ({} : Settings).dispatcher ∉ quoted.identifiers ∧ ({} : Settings).returns ∉ quoted.identifiers

instance (module : Tree) : Decidable module.Free :=
  inferInstanceAs (Decidable (∀ part ∈ module.subtrees, _ ∧ _))

instance (module : Tree) : Decidable module.Unquoted :=
  inferInstanceAs (Decidable (∀ part ∈ module.subtrees, ∀ quoted ∈ part.quotedParts, _ ∧ _))

theorem List.map_of_forall₂ {α β γ : Type} {related : α → β → Prop} {entries : List α} {others : List β}
    (all : List.Forall₂ related entries others) {f : α → γ} {g : β → γ}
    (same : ∀ entry ∈ entries, ∀ other, related entry other → g other = f entry) : others.map g = entries.map f := by
  induction all with
  | nil => rfl
  | cons own _ ih =>
      rw [List.map_cons, List.map_cons, same _ List.mem_cons_self _ own,
        ih fun entry member => same entry (List.mem_cons_of_mem _ member)]

variable {still : Prop} {σ : Equiv.Perm String} {settings : Settings} {module : Tree} {root : String} {items : List Tree}
  {specifications others : List Specification}

/-! ### The renaming of a fresh replacement -/

theorem Settings.Fresh.exists_renaming (fresh : settings.Fresh module) :
    ∃ σ : Equiv.Perm String, ∀ word ∈ module.known, σ word = settings.replace word :=
  Settings.exists_renaming fresh.different fresh.dispatcher fresh.returns

theorem identifiers_known : module.identifiers ⊆ module.known := fun own inside => by simp [Tree.known, inside]

section
variable (agrees : ∀ word ∈ module.known, σ word = settings.replace word)
include agrees

theorem keeps_of_agrees : Keeps σ := by
  intro word reserved
  rw [agrees word (by simp [Tree.known, reserved])]
  exact Settings.replace_other (ne_of_mem_of_not_mem reserved (by decide)) (ne_of_mem_of_not_mem reserved (by decide))

theorem default_of_agrees : ({} : Settings).rename σ = settings := by
  have dispatcher := agrees _ List.mem_cons_self
  have returns := agrees _ (List.mem_cons_of_mem _ List.mem_cons_self)
  rw [Settings.rename, dispatcher, returns]
  rfl

theorem replace_of_fixed {own : String} (fixed : σ own = own) : settings.replace own = own := by
  by_cases isDispatcher : own = ({} : Settings).dispatcher
  · rw [← agrees own (by simp [Tree.known, isDispatcher]), fixed]
  by_cases isReturns : own = ({} : Settings).returns
  · rw [← agrees own (by simp [Tree.known, isReturns]), fixed]
  · exact Settings.replace_other isDispatcher isReturns

theorem rename_of_agrees {tree : Tree} (known : tree.identifiers ⊆ module.known) :
    tree.rename σ = tree.rename settings.replace :=
  Tree.rename_congr fun own inside => agrees own (known (Tree.mem_identifiers.mpr inside))

/-- A fresh replacement keeps declared names, and what messages quote unless it holds what is replaced. -/
theorem steady_of_free (free : module.Free) : module.Steady module.Unquoted σ where
  names part inside name declared := by
    have listed := Tree.identifiers_subtree inside (Tree.declaredName?_identifier declared)
    obtain ⟨notDispatcher, notReturns⟩ := free part inside
    rw [declared] at notDispatcher notReturns
    rw [agrees name (by simp [Tree.known, listed])]
    exact Settings.replace_other (fun same => notDispatcher (congrArg some same)) fun same => notReturns (congrArg some same)
  quotes unquoted part inside quoted member := by
    refine Tree.rename_eq_self fun own listed => ?_
    have within := Tree.subtrees_trans inside (Tree.quotedParts_subset part member)
    obtain ⟨noDispatcher, noReturns⟩ := unquoted part inside quoted member
    rw [agrees own (by simp [Tree.known, Tree.identifiers_subtree within listed])]
    exact Settings.replace_other (fun same => noDispatcher (same ▸ listed)) fun same => noReturns (same ▸ listed)

end

/-! ### What is emitted -/

theorem replace_underscored {own : String} (mark : '_' ∈ own.toList) : settings.replace own = own :=
  Settings.replace_other (fun same => absurd (same ▸ mark) (by decide)) fun same => absurd (same ▸ mark) (by decide)

theorem generated_fixed (analyzed : analyze {} (.ofItems root items) = .ok specifications) {specification : Specification}
    (member : specification ∈ specifications) :
    settings.replace specification.unitName = specification.unitName ∧
      settings.replace specification.generatedName = specification.generatedName := by
  obtain ⟨test, _, made⟩ := (Expansion.mem_specifications analyzed).mp member
  obtain ⟨place, contract, extracted⟩ := Specification.extracted_of_ofTest made
  have mark : '_' ∈ specification.generatedName.toList := by
    rw [extracted.generatedName]
    exact Name.underscore_generated _ _ _
  refine ⟨replace_underscored ?_, replace_underscored mark⟩
  rw [Specification.unitName, Name.unit, String.toList_append]
  exact List.mem_append_right _ mark

/-- The unit of a renamed specification is that of the specification, replaced. -/
theorem unit_of_renamed (agrees : ∀ word ∈ module.known, σ word = settings.replace word)
    (inline : module.asModule? = some ⟨root, some items⟩) (steady : module.Steady still σ)
    (analyzed : analyze {} (.ofItems root items) = .ok specifications) {specification other : Specification}
    (member : specification ∈ specifications) (renamed : specification.Renamed σ other) :
    other.unit = (specification.reordered settings).unit.rename settings.replace := by
  obtain ⟨signatures, paths⟩ := specifications_known inline analyzed member
  obtain ⟨unitName, generatedName⟩ := @generated_fixed settings _ _ _ analyzed _ member
  obtain ⟨test, _, made⟩ := (Expansion.mem_specifications analyzed).mp member
  obtain ⟨place, contract, extracted⟩ := Specification.extracted_of_ofTest made
  obtain ⟨own, content⟩ := steady.asModule? inline
  refine Specification.unit_replace renamed ?_ ?_ ?_ generatedName unitName ?_
  · exact fun method inside => rename_of_agrees agrees (signatures method inside)
  · intro path inside
    exact congrArg ImportPath.mk (List.map_congr_left fun word listed => agrees word (paths path inside listed))
  · rw [extracted.imports]
    refine (ImportPath.ascending_sorted _).imp fun {path other} before same => ?_
    rw [same, ImportPath.precedes_irrefl] at before
    cases before
  · obtain ⟨marker, _, contracted⟩ := extracted.first
    obtain ⟨path, _, _, resolved⟩ := Specification.contractOf_eq_ok contracted
    have named := ((Catalog.steady_ofItems own content).contracts _ _ _ _ resolved).name
    rw [extracted.named]
    exact replace_of_fixed agrees named

/-- Emitting renamed specifications into the replaced module replaces what is emitted otherwise. -/
theorem emit_replace (renamed : List.Forall₂ (Specification.Renamed σ) specifications others)
    (units : ∀ specification ∈ specifications, ∀ other, specification.Renamed σ other →
      other.unit = (specification.reordered settings).unit.rename settings.replace)
    (fixed : ∀ specification ∈ specifications, settings.replace specification.unitName = specification.unitName ∧
      settings.replace specification.generatedName = specification.generatedName)
    (attributes visibility unsafety word name inner : Tree) (items : List Tree) :
    let module := Tree.node .itemMod [attributes, visibility, unsafety, word, name, .group .brace (inner :: items)]
    emit settings others (module.rename settings.replace) =
      (emit {} (specifications.map (Specification.reordered settings)) module).rename settings.replace := by
  intro module
  have written : others.map Specification.unit =
      ((specifications.map (Specification.reordered settings)).map Specification.unit).map
        (Tree.rename settings.replace) := by
    rw [List.map_map, List.map_map]
    exact List.map_of_forall₂ renamed units
  have registrations : (Dispatcher.ofSpecifications settings.dispatcher others) =
      ⟨settings.dispatcher, (Dispatcher.ofSpecifications ({} : Settings).dispatcher
        (specifications.map (Specification.reordered settings))).registrations⟩ := by
    refine congrArg (Dispatcher.mk settings.dispatcher) ?_
    rw [Dispatcher.ofSpecifications, List.map_map]
    refine List.map_of_forall₂ renamed fun specification _ other same => ?_
    simp only [Function.comp_apply, Specification.reordered, Specification.unitName, same.key, same.generatedName]
  have known : ∀ registration ∈ (Dispatcher.ofSpecifications ({} : Settings).dispatcher
      (specifications.map (Specification.reordered settings))).registrations,
      settings.replace registration.unit = registration.unit ∧
        settings.replace registration.type = registration.type := by
    intro registration member
    obtain ⟨specification, inside, rfl⟩ := List.mem_map.mp member
    obtain ⟨own, listed, rfl⟩ := List.mem_map.mp inside
    exact fixed own listed
  have unit := Dispatcher.unit_replace known
  have importItem := @Dispatcher.importItem_replace settings (Dispatcher.ofSpecifications ({} : Settings).dispatcher
      (specifications.map (Specification.reordered settings))).registrations
  simp only [module, emit, Tree.rename_node, Tree.group, List.map_cons, List.map_nil, List.map_append,
    written, registrations, unit, importItem]
  rfl

/-- Emitting the renamed specifications of a module into what is bound, renamed. -/
theorem emit_of_renamed (agrees : ∀ word ∈ module.known, σ word = settings.replace word)
    (inline : module.asModule? = some ⟨root, some items⟩) (steady : module.Steady still σ)
    (analyzed : analyze {} (.ofItems root items) = .ok specifications)
    (renamed : List.Forall₂ (Specification.Renamed σ) specifications others) (keys : List String) :
    emit settings others ((bindSites {} keys module).1.rename σ) =
      (emit {} (specifications.map (Specification.reordered settings)) (bindSites {} keys module).1).rename
        settings.replace := by
  have units : ∀ specification ∈ specifications, ∀ other, specification.Renamed σ other →
      other.unit = (specification.reordered settings).unit.rename settings.replace :=
    fun specification member other same => unit_of_renamed agrees inline steady analyzed member same
  rw [rename_of_agrees agrees (bindSites_known inline keys)]
  obtain ⟨attributes, visibility, unsafety, word, inner, rfl⟩ := Tree.inline_module_shape inline
  exact emit_replace renamed units (fun specification member => generated_fixed analyzed member) attributes visibility
    unsafety word (Tree.ident root) inner _

/-! ### The expansion -/

section
variable {catalog : Catalog} (collected : Catalog.ofModule module = .ok catalog)
include collected

theorem expand_of_faults {faults : List Problem} (analyzed : analyze settings catalog = .error faults) :
    expand settings module = .error (inMessageOrder (faults ++ (bindSites settings [] module).2)) := by
  rw [expand, collected]
  simp only [analyzed]

theorem expand_of_fault {fault : Problem} (analyzed : analyze settings catalog = .error [fault])
    (sites : (bindSites settings [] module).2 = []) : expand settings module = .error [fault] := by
  rw [expand_of_faults collected analyzed, sites]
  exact congrArg Except.error (List.mergeSort_singleton _)

theorem expand_of_sites (analyzed : analyze settings catalog = .ok specifications) {bound : Tree}
    (sites : bindSites settings (specifications.map Specification.key) module = (bound, [])) :
    expand settings module = .ok (emit settings specifications bound) := by
  rw [expand, collected]
  simp only [analyzed, sites]

theorem expand_of_strays (analyzed : analyze settings catalog = .ok specifications) {bound : Tree} {first : Problem}
    {rest : List Problem}
    (sites : bindSites settings (specifications.map Specification.key) module = (bound, first :: rest)) :
    expand settings module = .error (inMessageOrder (first :: rest)) := by
  rw [expand, collected]
  simp only [analyzed, sites]

end

/--
That an output is emitted from the specifications of a module under the default settings, and another one is the
same with its imports in the order of the replaced paths, replaced.
-/
def Expansion.Replaced (settings : Settings) (module output other : Tree) : Prop :=
  ∃ catalog specifications bound, Catalog.ofModule module = .ok catalog ∧ analyze {} catalog = .ok specifications ∧
    bindSites {} (specifications.map Specification.key) module = (bound, []) ∧
    output = emit {} specifications bound ∧
    other = (emit {} (specifications.map (Specification.reordered settings)) bound).rename settings.replace

/-- The replaced module is expanded as the module is, with the identifiers replaced in what is generated. -/
theorem expand_renamed (fresh : settings.Fresh module) (free : module.Free) :
    Agree module.Unquoted (Expansion.Replaced settings module) (expand {} module)
      (expand settings (module.rename settings.replace)) := by
  obtain ⟨σ, agrees⟩ := fresh.exists_renaming
  have keeps := keeps_of_agrees agrees
  have steady := steady_of_free agrees free
  have default := default_of_agrees agrees
  have collected' := Catalog.ofModule_rename keeps module
  have renamedModule := rename_of_agrees agrees (@identifiers_known module)
  rw [← renamedModule]
  cases collected : Catalog.ofModule module with
  | error problem =>
      rw [collected] at collected'
      have failed : expand {} module = .error [problem] := by rw [expand, collected]
      have failed' : expand settings (module.rename σ) = .error [problem] := by
        rw [expand, collected']
        rfl
      rw [failed, failed']
      exact .error fun _ => rfl
  | ok catalog =>
      rw [collected] at collected'
      obtain ⟨root, items, inline, rfl⟩ := Catalog.ofModule_eq_ok collected
      obtain ⟨own, content⟩ := steady.asModule? inline
      have agree := analyze_agree keeps (Catalog.steady_ofItems own content)
        fun test member => Test.steady_of_mem keeps.blank content member
      rw [default] at agree
      have sites : ∀ keys, bindSites settings keys (module.rename σ) = Binder.Bound.rename σ (bindSites {} keys module) := by
        intro keys
        rw [← bindSites_rename keeps {} keys steady inline, default]
      generalize analyzed : analyze {} (.ofItems root items) = result,
        analyzed' : analyze settings ((Catalog.ofItems root items).rename σ) = result' at agree
      cases agree with
      | error same =>
          rw [expand_of_faults collected analyzed, expand_of_faults collected' analyzed', sites]
          refine .error fun unquoted => ?_
          rw [same unquoted]
          rfl
      | @ok specifications others renamed =>
          have keys : others.map Specification.key = specifications.map Specification.key :=
            List.map_of_forall₂ renamed fun specification _ other same => same.key
          have sites' := sites (others.map Specification.key)
          rw [keys] at sites'
          have emitted := emit_of_renamed agrees inline steady analyzed renamed (specifications.map Specification.key)
          cases found : bindSites {} (specifications.map Specification.key) module with
          | mk bound strays =>
              rw [found] at sites' emitted
              rw [← keys] at sites'
              cases strays with
              | nil =>
                  rw [expand_of_sites collected analyzed found, expand_of_sites collected' analyzed' sites']
                  exact .ok ⟨_, specifications, bound, collected, analyzed, found, rfl, emitted⟩
              | cons first rest =>
                  rw [expand_of_strays collected analyzed found, expand_of_strays collected' analyzed' sites']
                  exact .error fun _ => rfl

/-! ### Samples -/

/-- The identifiers that the samples are renamed to. -/
def mockSettings : Settings := ⟨"Mock", "gives"⟩

/-- A contract that names the dispatcher in a signature, and a test that creates a double of it. -/
def namingSample : Tree :=
  Tree.inlineModule "samples"
    [Tree.plainTrait "I" [Tree.takingMethod "m" (Tree.namedType ["Ghost"])],
      Tree.testFunction "t" [Tree.creation "Ghost" ["I"]]]

/-- A test that creates a double of a contract which does not exist. -/
def missingSample : Tree :=
  Tree.inlineModule "samples" [Tree.testFunction "t" [Tree.creation "Ghost" ["I"]]]

theorem namingSample_fresh : mockSettings.Fresh namingSample := ⟨by decide, by decide +kernel, by decide +kernel⟩

theorem expand_renamed_mock :
    (∃ output other, expand {} namingSample = .ok output ∧
      expand mockSettings (namingSample.rename mockSettings.replace) = .ok other ∧
      Expansion.Replaced mockSettings namingSample output other) ∧
    ∃ problem, expand {} missingSample = .error [problem] ∧
      expand mockSettings (missingSample.rename mockSettings.replace) = .error [problem] := by
  constructor
  · have agree := @expand_renamed mockSettings namingSample namingSample_fresh (by decide)
    have inline : namingSample.asModule? = some ⟨"samples", some _⟩ := rfl
    have expanded := (@Expansion.expand_eq_ok_iff {} _ _ _ inline _).mpr ⟨[_], _, rfl, rfl, rfl⟩
    rw [expanded] at agree
    generalize expand mockSettings (namingSample.rename mockSettings.replace) = result at agree ⊢
    cases agree with
    | ok replaced => exact ⟨_, _, expanded, rfl, replaced⟩
  · have agree := @expand_renamed mockSettings missingSample ⟨by decide, by decide +kernel, by decide +kernel⟩ (by decide)
    have collected : Catalog.ofModule missingSample = .ok _ := rfl
    have expanded := expand_of_fault collected (rfl : analyze {} _ = .error [_]) rfl
    rw [expanded] at agree
    generalize expand mockSettings (missingSample.rename mockSettings.replace) = result at agree ⊢
    cases agree with
    | error same => exact ⟨_, expanded, congrArg Except.error (same (by decide)).symm⟩

/-- A module that configures a truth value for a result of the type of the dispatcher. -/
def quotingSample : Tree :=
  let truth := Tree.node .literal [Tree.noAttributes, Tree.ident "true"]
  Tree.inlineModule "samples"
    [Tree.plainTrait "I" [Tree.returningMethod "m" (Tree.namedType ["Ghost"])],
      Tree.testFunction "t" [Tree.creation "Ghost" ["I"], Tree.configuration "i" "m" truth]]

/-- The first item of a unit, which is the first of its imports. -/
def Tree.firstImport? : Tree → Option Tree
  | .node .itemVerbatim parts =>
    match parts.getLast? with
    | some (.node (.group .brace) (first :: _)) => some first
    | _ => none
  | _ => none

/--
The expansion of a renamed module is not the renamed expansion: imports that hold the dispatcher change their order,
and messages that quote it change their text.
-/
theorem expand_not_renamed :
    (mockSettings.Fresh namingSample ∧ namingSample.Free ∧
      ∃ output other, expand {} namingSample = .ok output ∧
        expand mockSettings (namingSample.rename mockSettings.replace) = .ok other ∧
        other ≠ output.rename mockSettings.replace) ∧
    mockSettings.Fresh quotingSample ∧ quotingSample.Free ∧
      ∃ problem other, expand {} quotingSample = .error [problem] ∧
        expand mockSettings (quotingSample.rename mockSettings.replace) = .error [other] ∧
        problem.message = "value configured for `m` does not fit `Ghost`: bool `true`" ∧
        other.message = "value configured for `m` does not fit `Mock`: bool `true`" := by
  refine ⟨⟨namingSample_fresh, by decide, ?_⟩, ⟨by decide, by decide +kernel, by decide +kernel⟩, by decide, ?_⟩
  · have inline : namingSample.asModule? = some ⟨"samples", some _⟩ := rfl
    have inline' : (namingSample.rename mockSettings.replace).asModule? = some ⟨"samples", some _⟩ := rfl
    have expanded := (@Expansion.expand_eq_ok_iff {} _ _ _ inline _).mpr ⟨[_], _, rfl, rfl, rfl⟩
    have expanded' := (@Expansion.expand_eq_ok_iff mockSettings _ _ _ inline' _).mpr ⟨[_], _, rfl, rfl, rfl⟩
    refine ⟨_, _, expanded, expanded', fun same => ?_⟩
    have first := congrArg (fun output =>
      ((output.asModule?.bind ModuleItem.items).getD [])[3]?.bind fun unit =>
        unit.firstImport?.map Tree.identifiers) same
    revert first
    decide +kernel
  · have collected : Catalog.ofModule quotingSample = .ok _ := rfl
    have collected' : Catalog.ofModule (quotingSample.rename mockSettings.replace) = .ok _ := rfl
    have expanded := expand_of_fault collected (rfl : analyze {} _ = .error [_]) rfl
    have expanded' := expand_of_fault collected' (rfl : analyze mockSettings _ = .error [_]) rfl
    exact ⟨_, _, expanded, expanded', by decide, by decide⟩

end TestDouble
