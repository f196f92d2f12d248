import TestDouble.Generated.Dispatcher
import TestDouble.Proofs.Renaming.Fresh
import TestDouble.Proofs.Renaming.Specification
/-!
# Replacing the two identifiers in generated code

No fixed piece of generated code holds one of the two identifiers that the analysis looks for by default, so the
units of renamed specifications are those of the specifications, with the identifiers replaced.
-/

namespace TestDouble

/-- Whether the identifiers that the analysis looks for by default do not occur in a tree. -/
def Tree.isNeutral (tree : Tree) : Bool :=
  tree.tokens.all fun token => token != .ident ({} : Settings).dispatcher && token != .ident ({} : Settings).returns

/-- The fixed pieces of generated code. -/
def fixedPieces : List String :=
  ["::std::string::String::new()", "::std::string::String::from", "::std::time::Duration::ZERO", "&[]",
    "::core::default::Default::default()", "self.core.returned::", ", ||", "self.core.observe", "self.mode,", ", &[]",
    "#[allow(unused_variables)]", "pub struct", "core: ::std::rc::Rc<::pinky::MockCore>, mode: ::pinky::Mode,",
    "let mock: ::std::boxed::Box<dyn",
    "> = ::std::boxed::Box::new(Self \x7b core, mode \x7d); ::std::boxed::Box::new(mock)",
    "pub fn summon(core: ::std::rc::Rc<::pinky::MockCore>, mode: ::pinky::Mode,)",
    "-> ::std::boxed::Box<dyn ::std::any::Any>", "impl", "for", "#[doc(hidden)]",
    "#[allow(non_camel_case_types, non_snake_case, dead_code, unused_imports)]", "#[allow(unused_imports)]",
    "use self::__pinky_ghost::", "registry.register", ", super::", "::", "::summon",
    "let mut registry = ::pinky::Registry::new();", "registry",
    "static REGISTRY: ::std::sync::OnceLock<::pinky::Registry> = ::std::sync::OnceLock::new();", "REGISTRY.get_or_init",
    "||", "fn registry() -> &'static ::pinky::Registry",
    "#[doc = r\" Mock registered for the calling test function.\"] #[track_caller]",
    "pub fn of<T: ?Sized + 'static>(key: &'static str) -> ::pinky::Ghosted<T>",
    "match Self::registry().summon::<T>(key)", "Ok(ghost) => ghost, Err(err) => panic!(\"\x7b\x7d\", err),",
    "#[doc = r\" Verifier of `ghost` expecting exactly `count` calls of the\"]",
    "#[doc = r\" method invoked on it.\"] #[track_caller]",
    "pub fn received<T: ?Sized + 'static>(ghost: &::pinky::Ghosted<T>, count: usize,)", "-> ::std::boxed::Box<T>",
    "match Self::registry().received::<T>(ghost, count)", "Ok(mock) => mock, Err(err) => panic!(\"\x7b\x7d\", err),",
    "#[doc = r\" Verifier of `ghost` expecting no call.\"] #[track_caller]",
    "pub fn did_not_receive<T: ?Sized + 'static>(ghost: &::pinky::Ghosted<T>,)", "Self::received(ghost, 0)",
    "#[allow(non_camel_case_types, non_snake_case, dead_code, unused_mut)]"]

theorem fixedPieces_neutral : ∀ text ∈ fixedPieces, (code text).all Tree.isNeutral = true := by
  simp only [fixedPieces, List.forall_mem_cons, List.not_mem_nil, false_implies, implies_true, and_true]
  -- cut from its characters a piece is not taken apart by the kernel first
  repeat rw [code_ofList]
  decide +kernel

variable {settings : Settings} {σ : Equiv.Perm String}

theorem Tree.rename_neutral {tree : Tree} (neutral : tree.isNeutral = true) : tree.rename settings.replace = tree := by
  have same : tree.rename settings.replace = tree.rename id := by
    refine rename_congr fun own inside => ?_
    have other := Bool.and_eq_true_iff.mp (List.all_eq_true.mp neutral _ inside)
    exact Settings.replace_other (fun same => bne_iff_ne.mp other.1 (congrArg Token.ident same))
      fun same => bne_iff_ne.mp other.2 (congrArg Token.ident same)
  rw [same, rename_id]

theorem code_replace {text : String} (fixed : text ∈ fixedPieces) :
    (code text).map (Tree.rename settings.replace) = code text := by
  refine (List.map_congr_left fun tree member => ?_).trans (List.map_id' _)
  exact Tree.rename_neutral (List.all_eq_true.mp (fixedPieces_neutral text fixed) tree member)

/-! ### The dispatcher -/

namespace Dispatcher

theorem registrationStatement_replace {registration : Registration}
    (unit : settings.replace registration.unit = registration.unit)
    (type : settings.replace registration.type = registration.type) :
    (registrationStatement registration).map (Tree.rename settings.replace) = registrationStatement registration := by
  simp (disch := decide) only [registrationStatement, List.map_append, List.map_cons, List.map_nil, code_replace,
    Tree.rename_group, Tree.rename_token, Token.rename, Tree.rename_ident, Tree.rename_punct, unit, type]

theorem unit_replace {registrations : List Registration} (named : ∀ registration ∈ registrations,
      settings.replace registration.unit = registration.unit ∧ settings.replace registration.type = registration.type) :
    (Dispatcher.mk settings.dispatcher registrations).unit =
      (Dispatcher.mk ({} : Settings).dispatcher registrations).unit.rename settings.replace := by
  have statements : (registrations.flatMap registrationStatement).map (Tree.rename settings.replace) =
      registrations.flatMap registrationStatement := by
    rw [List.map_flatMap]
    refine List.flatMap_congr fun registration member => ?_
    exact registrationStatement_replace (named registration member).1 (named registration member).2
  have dispatcher : settings.replace ({} : Settings).dispatcher = settings.dispatcher := if_pos rfl
  have word : settings.replace "mod" = "mod" := Settings.replace_other (by decide) (by decide)
  have aggregate : settings.replace Name.aggregate = Name.aggregate := Settings.replace_other (by decide) (by decide)
  simp (disch := decide) only [unit, registryFunction, ofFunction, receivedFunction, didNotReceiveFunction,
    Tree.rename_node, Tree.rename_group, Tree.rename_ident, Tree.rename_punct, List.map_append, List.map_cons,
    List.map_nil, code_replace, statements, dispatcher, word, aggregate]

theorem importItem_replace (registrations : List Registration) :
    (Dispatcher.mk settings.dispatcher registrations).importItem =
      (Dispatcher.mk ({} : Settings).dispatcher registrations).importItem.rename settings.replace := by
  have dispatcher : settings.replace ({} : Settings).dispatcher = settings.dispatcher := if_pos rfl
  simp (disch := decide) only [importItem, allowUnusedImports, Tree.rename_node, Tree.rename_ident, Tree.rename_punct,
    List.map_append, List.map_cons, List.map_nil, code_replace, dispatcher]

end Dispatcher

/-! ### Methods -/

namespace Descriptor

theorem defaultValue?_replace {type : Descriptor} {value : List Tree} (found : type.defaultValue? = some value) :
    value.map (Tree.rename settings.replace) = value := by
  have no : settings.replace "false" = "false" := Settings.replace_other (by decide) (by decide)
  unfold defaultValue? at found
  split at found
  all_goals cases found
  all_goals first
    | exact code_replace (by decide)
    | simp [literal, Token.rename, no]

theorem signed_replace (negative : Bool) (magnitude : String) :
    (signed negative magnitude).map (Tree.rename settings.replace) = signed negative magnitude := by
  cases negative <;> rfl

theorem floatValue_replace {kind : FloatKind} {number : BinaryFloat} {value : List Tree}
    (found : floatValue kind number = some value) : value.map (Tree.rename settings.replace) = value := by
  unfold floatValue at found
  split at found
  · cases found
    exact signed_replace _ _
  · cases found

theorem constant?_replace {type : Descriptor} {constant : Constant} {value : List Tree}
    (found : type.constant? constant = some value) : value.map (Tree.rename settings.replace) = value := by
  unfold constant? at found
  split at found
  · rename_i own
    cases found
    have word : settings.replace (toString own) = toString own := by
      cases own <;> exact Settings.replace_other (by decide) (by decide)
    rw [List.map_singleton, Tree.rename_ident, word]
  · cases found
    rfl
  · split at found
    · cases found
      exact signed_replace _ _
    · cases found
  · exact floatValue_replace found
  · exact floatValue_replace found
  · cases found
    simp (disch := decide) only [stringFrom, List.map_append, code_replace, List.map_singleton, Tree.rename_group]
    rfl
  · cases found
    rfl
  · cases found

end Descriptor

theorem Tree.resultType?_some (name : String → String) {signature type : Tree} (found : signature.resultType? = some type) :
    (signature.rename name).resultType? = some (type.rename name) := by
  obtain ⟨_, _, _, _, _, _, _, _, _, _, rfl⟩ := resultType?_shape found
  simp only [rename_node, List.map_cons, List.map_nil]
  rfl

namespace MethodSpecification

theorem baked?_replace {method : MethodSpecification} {value : List Tree} (found : method.baked? = some value) :
    value.map (Tree.rename settings.replace) = value := by
  rcases Option.or_eq_some_iff.mp found with configured | ⟨_, default⟩
  · obtain ⟨constant, _, written⟩ := Option.bind_eq_some_iff.mp configured
    exact Descriptor.constant?_replace written
  · exact Descriptor.defaultValue?_replace default

/-- The code of a renamed method is the code of the method, with the identifiers replaced. -/
theorem item_replace {method other : MethodSpecification} (renamed : method.Renamed σ other)
    (same : method.signature.rename σ = method.signature.rename settings.replace) :
    other.item = method.item.map (Tree.rename settings.replace) := by
  have literal : other.nameLiteral = method.nameLiteral.rename settings.replace := by
    rw [nameLiteral, nameLiteral, renamed.name]
    rfl
  have baked : other.baked? = method.baked? := by
    rw [baked?, baked?, renamed.configured, renamed.type.defaultValue?, funext renamed.type.constant?]
  have result : other.result = method.result.map (Tree.rename settings.replace) := by
    rw [MethodSpecification.result, MethodSpecification.result, renamed.signature, Tree.resultType?_rename,
      renamed.type.isNoValue, baked, ResultType.isBorrowed_rename]
    cases found : method.signature.resultType? with
    | none => rfl
    | some type =>
        have written : type.rename σ = type.rename settings.replace := by
          have both := Tree.resultType?_some σ found
          rw [same, Tree.resultType?_some settings.replace found] at both
          exact (Option.some.inj both).symm
        simp only [Option.map_some, written]
        split
        · rfl
        · cases value : method.baked? with
          | none => rfl
          | some value' =>
              have fixed := @baked?_replace settings _ _ value
              simp only
              split
              · exact fixed.symm
              · simp (disch := decide) only [List.map_append, List.map_cons, List.map_nil, code_replace, Tree.rename_group,
                  Tree.rename_punct, literal, fixed]
  have observation : other.observation = method.observation.map (Tree.rename settings.replace) := by
    simp (disch := decide) only [MethodSpecification.observation, literal, List.map_append, List.map_cons, List.map_nil,
      code_replace, Tree.rename_group, Tree.rename_punct]
  simp (disch := decide) only [item, renamed.signature, same, result, observation, List.map_append, List.map_cons,
    List.map_nil, code_replace, Tree.rename_group]

end MethodSpecification

/-! ### Specifications -/

namespace Specification

/-- The specification with its imports in the order of the replaced paths. -/
def reordered (settings : Settings) (specification : Specification) : Specification :=
  { specification with
    imports := specification.imports.mergeSort fun path other =>
      !(other.rename settings.replace).precedes (path.rename settings.replace) }

theorem imports_replace {specification other : Specification} (renamed : specification.Renamed σ other)
    (same : ∀ path ∈ specification.imports, path.rename σ = path.rename settings.replace)
    (distinct : specification.imports.Nodup) :
    other.imports = (specification.reordered settings).imports.map (ImportPath.rename settings.replace) := by
  have injective : Function.Injective (ImportPath.rename σ) := by
    intro path other same
    obtain ⟨segments⟩ := path
    obtain ⟨segments'⟩ := other
    have written := List.map_injective_iff.mpr σ.injective (ImportPath.mk.inj same)
    exact congrArg ImportPath.mk written
  let rank (path other : ImportPath) : Bool :=
    !(other.rename settings.replace).precedes (path.rename settings.replace)
  have rank_iff : ∀ path other, rank path other = true ↔
      ¬(other.rename settings.replace).precedes (path.rename settings.replace) = true := by
    intro path other
    rw [Bool.not_eq_true, ← Bool.not_eq_true']
  have ordered : (specification.imports.mergeSort rank).Pairwise fun path other => rank path other = true := by
    refine List.pairwise_mergeSort ?_ ?_ _
    · intro first second third before after
      rw [rank_iff] at before after ⊢
      exact ImportPath.not_precedes_trans before after
    · intro first second
      rw [Bool.or_eq_true, rank_iff, rank_iff, ← not_and_or]
      rintro ⟨before, after⟩
      have around := ImportPath.precedes_trans before after
      rw [ImportPath.precedes_irrefl] at around
      cases around
  have placed := List.mergeSort_perm specification.imports rank
  have ascending : ((specification.imports.mergeSort rank).map (ImportPath.rename settings.replace)).Pairwise
      fun path other => path.precedes other = true := by
    rw [List.pairwise_map]
    refine (ordered.and (placed.nodup_iff.mpr distinct)).imp_of_mem fun {path other} pathIn otherIn both => ?_
    refine ImportPath.precedes_of_not (fun alike => both.2 (injective ?_)) ((rank_iff _ _).mp both.1)
    rw [same path (placed.mem_iff.mp pathIn), same other (placed.mem_iff.mp otherIn), alike]
  rw [renamed.imports, List.map_congr_left same]
  exact ImportPath.sorted_eq ascending fun path => (placed.map (ImportPath.rename settings.replace)).mem_iff.symm

theorem toItem_replace (path : ImportPath) :
    (path.rename settings.replace).toItem = path.toItem.rename settings.replace := by
  have word : settings.replace "use" = "use" := Settings.replace_other (by decide) (by decide)
  have written : (path.segments.map settings.replace).map Tree.ident =
      (path.segments.map Tree.ident).map (Tree.rename settings.replace) := by
    rw [List.map_map, List.map_map]
    rfl
  simp only [ImportPath.toItem, ImportPath.rename, Name.pathTokens, written, Tree.rename_node, List.map_cons,
    List.map_append, List.map_nil, Tree.rename_ident, word, Tree.rename_punct, Tree.map_intersperse]

/-- The unit of a renamed specification is that of the specification, with the identifiers replaced. -/
theorem unit_replace {specification other : Specification} (renamed : specification.Renamed σ other)
    (signatures : ∀ method ∈ specification.methods,
      method.signature.rename σ = method.signature.rename settings.replace)
    (paths : ∀ path ∈ specification.imports, path.rename σ = path.rename settings.replace)
    (distinct : specification.imports.Nodup)
    (type : settings.replace specification.generatedName = specification.generatedName)
    (unitName : settings.replace specification.unitName = specification.unitName)
    (contract : settings.replace specification.contract = specification.contract) :
    other.unit = (specification.reordered settings).unit.rename settings.replace := by
  have typeName : (specification.reordered settings).typeName.rename settings.replace = other.typeName := by
    rw [Specification.typeName, Specification.typeName, renamed.generatedName]
    exact congrArg Tree.ident type
  have unit : (specification.reordered settings).unitName = other.unitName := by
    rw [Specification.unitName, Specification.unitName, renamed.generatedName]
    rfl
  have name : settings.replace other.unitName = other.unitName := unit ▸ unitName
  have items : other.imports.map ImportPath.toItem =
      ((specification.reordered settings).imports.map ImportPath.toItem).map (Tree.rename settings.replace) := by
    rw [imports_replace renamed paths distinct, List.map_map, List.map_map]
    exact List.map_congr_left fun path _ => toItem_replace path
  have methods : other.methods.flatMap MethodSpecification.item =
      ((specification.reordered settings).methods.flatMap MethodSpecification.item).map (Tree.rename settings.replace) := by
    change other.methods.flatMap MethodSpecification.item =
      (specification.methods.flatMap MethodSpecification.item).map (Tree.rename settings.replace)
    have renamedMethods := renamed.methods
    generalize specification.methods = own, other.methods = others at renamedMethods signatures
    induction renamedMethods with
    | nil => rfl
    | cons same _ ih =>
        rw [List.flatMap_cons, List.flatMap_cons, List.map_append,
          MethodSpecification.item_replace same (signatures _ List.mem_cons_self),
          ih fun method member => signatures method (List.mem_cons_of_mem _ member)]
  have contractName : settings.replace (specification.reordered settings).contract = other.contract := by
    rw [renamed.contract]
    exact contract
  have word : settings.replace "mod" = "mod" := Settings.replace_other (by decide) (by decide)
  have mark : (if other.isUnsafe then [Tree.ident "unsafe"] else []) =
      (if (specification.reordered settings).isUnsafe then [Tree.ident "unsafe"] else []).map
        (Tree.rename settings.replace) := by
    have word : settings.replace "unsafe" = "unsafe" := Settings.replace_other (by decide) (by decide)
    rw [renamed.isUnsafe]
    change _ = (if specification.isUnsafe then [Tree.ident "unsafe"] else []).map (Tree.rename settings.replace)
    split
    · rw [List.map_singleton, Tree.rename_ident, word]
    · rfl
  simp (disch := decide) only [Specification.unit, typeItem, constructor, implementation, mark, Tree.rename_node,
    Tree.rename_group, Tree.rename_ident, List.map_append, List.map_cons, List.map_nil, code_replace, word, unit, name,
    items, methods, typeName, contractName]

end Specification

end TestDouble
