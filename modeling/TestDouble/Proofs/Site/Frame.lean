import TestDouble.Proofs.Catalog.Inline
import TestDouble.Proofs.Site.Binding
import TestDouble.Proofs.Source.Plain
/-!
# What binding leaves alone

Binding may do anything to a test whose key is known. Elsewhere it only takes away configurations, in the
functions with the attribute of a test, and writes the arguments of an invocation anew if that changed
them. All other parts of the module stay, at their places and token by token.
-/

namespace TestDouble

namespace Binder

/-- A function with the attribute of a test whose key is among the known ones. -/
def Keyed (binder : Binder) (place : Place) (tree : Tree) : Prop :=
  ∃ function, tree.asFunction? = some function ∧ Catalog.isTest function = true ∧
    Name.key binder.root place.module function.name ∈ binder.keys

def Unkeyed (binder : Binder) (place : Place) : Prop :=
  ∀ key, place.function = some (key, true) → key ∉ binder.keys

/--
How a part of the module before binding is related to what stands there after it. A test with a known key
may become anything and a configuration in another test becomes the empty tuple. Any other node keeps its
kind and has as many children as before, each related to the child at its number; the arguments of an
invocation are those related to the ones before, in canonical form where this makes a difference.
-/
inductive Framed (binder : Binder) : Place → Tree → Tree → Prop where
  | token (place : Place) (t : Token) : Framed binder place (.token t) (.token t)
  | keyed {place : Place} {tree : Tree} (keyed : binder.Keyed place tree) (after : Tree) :
      Framed binder place tree after
  | erased {place : Place} {tree : Tree} (erased : binder.Erases place tree) : Framed binder place tree unit
  | node {place : Place} {kind : Kind} {children after : List Tree} (kept : ¬binder.Erases place (.node kind children))
      (other : kind ≠ .arguments) (same : children.length = after.length)
      (framed : ∀ (index : Nat) (before next : Tree), children[index]? = some before → after[index]? = some next →
        Framed binder (place.inside binder.root (.node kind children)) before next) :
      Framed binder place (.node kind children) (.node kind after)
  | arguments {place : Place} {children after : List Tree} (same : children.length = after.length)
      (framed : ∀ (index : Nat) (before next : Tree), children[index]? = some before → after[index]? = some next →
        Framed binder place before next) :
      Framed binder place (.node .arguments children) (invocationArguments children after)

/-! ### Searching a part of the module -/

mutual

/-- Whether a tree or a part below it has a property, at the place where it stands. -/
def holds (root : String) (property : Place → Tree → Bool) (place : Place) : Tree → Bool
  | .token t => property place (.token t)
  | .node kind children =>
    property place (.node kind children) ||
      holdsAny root property (place.inside root (.node kind children)) children

def holdsAny (root : String) (property : Place → Tree → Bool) (place : Place) : List Tree → Bool
  | [] => false
  | tree :: rest => holds root property place tree || holdsAny root property place rest

end

theorem holdsAny_eq_any (root : String) (property : Place → Tree → Bool) (place : Place) (trees : List Tree) :
    holdsAny root property place trees = trees.any (holds root property place) := by
  induction trees with
  | nil => rfl
  | cons first rest ih => simp [holdsAny, ih]

section

variable {root : String} {property : Place → Tree → Bool} {place : Place}

theorem not_holds_node {kind : Kind} {children : List Tree} :
    holds root property place (.node kind children) = false ↔
      property place (.node kind children) = false ∧
        ∀ child ∈ children, holds root property (place.inside root (.node kind children)) child = false := by
  rw [holds, holdsAny_eq_any, Bool.or_eq_false_iff, List.any_eq_false]
  simp only [Bool.not_eq_true]

theorem not_holds_self {tree : Tree} (none : holds root property place tree = false) : property place tree = false := by
  cases tree with
  | token t => exact none
  | node kind children => exact (not_holds_node.mp none).1

end

def touches (binder : Binder) (place : Place) (tree : Tree) : Bool :=
  (match tree.asFunction? with
    | some function =>
      Catalog.isTest function && binder.keys.contains (Name.key binder.root place.module function.name)
    | none => false) ||
    tree.kind? == some .methodCall && place.inTest && isConfiguration binder.settings tree

def isTestFunction (_ : Place) (tree : Tree) : Bool := (tree.asFunction?.map Catalog.isTest).getD false

variable {binder : Binder}

/-! ### Binding stays in the frame -/

theorem unkeyed_inside {place : Place} (unkeyed : binder.Unkeyed place) {tree : Tree}
    (notKeyed : ¬binder.Keyed place tree) : binder.Unkeyed (place.inside binder.root tree) := by
  unfold Place.inside
  split
  · exact unkeyed
  · rename_i children
    cases viewed : (Tree.node .itemFn children).asFunction? with
    | none => exact unkeyed
    | some function =>
        intro key test known
        simp only [Option.some.injEq, Prod.mk.injEq] at test
        obtain ⟨rfl, test⟩ := test
        exact notKeyed ⟨function, viewed, test, known⟩
  · intro key test
    simp at test
  · exact unkeyed

theorem not_binds_of_unkeyed {place : Place} (unkeyed : binder.Unkeyed place) (tree : Tree) :
    ¬binder.Binds place tree := by
  rintro ⟨_, key, test, known⟩
  exact unkeyed key test known

theorem framed_map {place : Place} {children : List Tree}
    (framed : ∀ child ∈ children, binder.Framed place child (binder.bind place child).1) :
    ∀ (index : Nat) (before next : Tree), children[index]? = some before →
      ((children.map (binder.bind place)).map (·.1))[index]? = some next → binder.Framed place before next := by
  intro index before next found bound
  rw [List.getElem?_map, List.getElem?_map, found] at bound
  cases bound
  exact framed before (List.mem_of_getElem? found)

theorem bind_framed (tree : Tree) {place : Place} (unkeyed : binder.Unkeyed place) :
    binder.Framed place tree (binder.bind place tree).1 := by
  induction tree using Tree.byChildren generalizing place with
  | token t => exact .token place t
  | node kind children ih =>
      by_cases keyed : binder.Keyed place (.node kind children)
      · exact .keyed keyed _
      by_cases erased : binder.Erases place (.node kind children)
      · rw [bind_erased erased]
        exact .erased erased
      have inside := unkeyed_inside unkeyed keyed
      by_cases arguments : kind = .arguments
      · subst arguments
        rw [bind_arguments]
        refine .arguments (by rw [List.length_map, List.length_map]) (framed_map ?_)
        intro child member
        exact ih child member inside
      · rw [bind_fst_kept erased (not_binds_of_unkeyed unkeyed _) arguments]
        refine .node erased arguments (by rw [List.length_map, List.length_map]) (framed_map ?_)
        intro child member
        exact ih child member inside

/-! ### What the frame keeps -/

theorem eq_of_framed_children {children after : List Tree} (same : children.length = after.length)
    (kept : ∀ (index : Nat) (before next : Tree), children[index]? = some before → after[index]? = some next → next = before) :
    after = children := by
  apply List.ext_getElem same.symm
  intro index inside within
  exact kept index _ _ (List.getElem?_eq_getElem within) (List.getElem?_eq_getElem inside)

theorem not_touched {place : Place} {tree : Tree} (untouched : binder.touches place tree = false) :
    ¬binder.Keyed place tree ∧ ¬binder.Erases place tree := by
  obtain ⟨unkeyed, kept⟩ := Bool.or_eq_false_iff.mp untouched
  constructor
  · rintro ⟨function, viewed, test, known⟩
    rw [viewed] at unkeyed
    simp [test, known] at unkeyed
  · rintro ⟨method, test, configuration⟩
    simp [method, test, configuration] at kept

/-- A part without tests whose key is known, and without configurations in tests, stays as it is. -/
theorem Framed.eq_of_untouched {place : Place} {before after : Tree} (framed : binder.Framed place before after)
    (untouched : holds binder.root binder.touches place before = false) : after = before := by
  induction framed with
  | token place t => rfl
  | keyed keyed after => exact absurd keyed (not_touched (not_holds_self untouched)).1
  | erased erased => exact absurd erased (not_touched (not_holds_self untouched)).2
  | node kept other same framed ih =>
      have below := (not_holds_node.mp untouched).2
      rw [eq_of_framed_children same]
      intro index before next found bound
      exact ih index before next found bound (below before (List.mem_of_getElem? found))
  | @arguments place children after same framed ih =>
      have below := (not_holds_node.mp untouched).2
      have read : after = children := by
        refine eq_of_framed_children same ?_
        intro index before next found bound
        exact ih index before next found bound (below before (List.mem_of_getElem? found))
      rw [read, invocationArguments]
      exact if_pos rfl

theorem inTest_inside {place : Place} (outside : place.inTest = false) (root : String) {tree : Tree}
    (helper : isTestFunction place tree = false) : (place.inside root tree).inTest = false := by
  unfold isTestFunction at helper
  unfold Place.inside
  split
  · exact outside
  · rename_i children
    cases viewed : (Tree.node .itemFn children).asFunction? with
    | none => exact outside
    | some function =>
        rw [viewed] at helper
        exact helper
  · rfl
  · exact outside

theorem untouched_of_helpers (tree : Tree) {place : Place} (outside : place.inTest = false)
    (helpers : holds binder.root isTestFunction place tree = false) :
    holds binder.root binder.touches place tree = false := by
  induction tree using Tree.byChildren generalizing place with
  | token t => rfl
  | node kind children ih =>
      obtain ⟨helper, below⟩ := not_holds_node.mp helpers
      refine not_holds_node.mpr ⟨?_, ?_⟩
      · unfold touches
        rw [outside, Bool.and_false, Bool.false_and, Bool.or_false]
        unfold isTestFunction at helper
        cases viewed : (Tree.node kind children).asFunction? with
        | none => rfl
        | some function =>
            rw [viewed] at helper
            have noTest : Catalog.isTest function = false := helper
            dsimp only
            rw [noTest, Bool.false_and]
      · intro child member
        exact ih child member (inTest_inside outside binder.root helper) (below child member)

end Binder

/--
The frame of binding, for every module and set of keys, whether problems are found or not. A module whose
content is elsewhere stays as it is. In any other one all items stay at their places, each related by
`Binder.Framed` to what it was: outside of the tests whose keys are known, nothing changes but that a
configuration in another test becomes the empty tuple, and that the arguments of an invocation are written
in canonical form if this changed them. So every part that holds neither a test with a known key nor a
configuration in a test stays as it is, and so does one outside of tests that holds no test at all.
-/
theorem bindSites_frame (settings : Settings) (keys : List String) (module : Tree) :
    ((∀ root items, module.asModule? ≠ some ⟨root, some items⟩) → (bindSites settings keys module).1 = module) ∧
      ∀ root items, module.asModule? = some ⟨root, some items⟩ →
        let binder : Binder := { settings, root, keys }
        (∃ attributes visibility unsafety word inner after,
          module = .node .itemMod [attributes, visibility, unsafety, word, Tree.ident root,
            .group .brace (inner :: items)] ∧
          (bindSites settings keys module).1 = .node .itemMod [attributes, visibility, unsafety, word,
            Tree.ident root, .group .brace (inner :: after)] ∧
          items.length = after.length ∧
          ∀ (index : Nat) (before next : Tree), items[index]? = some before → after[index]? = some next →
            binder.Framed ⟨[], none⟩ before next) ∧
        ∀ place before next, binder.Framed place before next →
          (Binder.holds root binder.touches place before = false → next = before) ∧
          (place.inTest = false → Binder.holds root Binder.isTestFunction place before = false →
            next = before) := by
  constructor
  · intro elsewhere
    unfold bindSites
    split
    · rename_i name inner items
      exact absurd rfl (elsewhere name items)
    · rfl
  · intro root items inline binder
    constructor
    · obtain ⟨attributes, visibility, unsafety, word, inner, rfl⟩ := Tree.inline_module_shape inline
      have start : binder.Unkeyed ⟨[], none⟩ := fun _ test => nomatch test
      refine ⟨attributes, visibility, unsafety, word, inner,
        (items.map (binder.bind ⟨[], none⟩)).map (·.1), rfl, ?_, ?_, ?_⟩
      · rw [← Binder.bindAll_eq_map]
        rfl
      · rw [List.length_map, List.length_map]
      · exact Binder.framed_map fun child _ => Binder.bind_framed child start
    · intro place before next framed
      refine ⟨framed.eq_of_untouched, ?_⟩
      intro outside helpers
      exact framed.eq_of_untouched (Binder.untouched_of_helpers before outside helpers)

/-- A helper, a test without creation sites and a test with one; both of the first have a configuration. -/
def builderItems : List Tree :=
  [Tree.plainFunction "build" [Tree.configuration "builder" "value" (Tree.literalExpr "1")],
    Tree.testFunction "builds" [Tree.configuration "builder" "value" (Tree.literalExpr "1")],
    Tree.testFunction "creates" [Tree.creation "Ghost" ["Gauge"]]]

theorem bindSites_frame_builders :
    ∃ attributes visibility unsafety word inner after,
      (bindSites {} ["samples::creates"] (Tree.inlineModule "samples" builderItems)).1 =
        .node .itemMod [attributes, visibility, unsafety, word, Tree.ident "samples",
          .group .brace (inner :: after)] ∧
      after[0]? = builderItems[0]? := by
  obtain ⟨⟨attributes, visibility, unsafety, word, inner, after, -, bound, same, frame⟩, stays⟩ :=
    (bindSites_frame {} ["samples::creates"] (Tree.inlineModule "samples" builderItems)).2 "samples" builderItems rfl
  refine ⟨attributes, visibility, unsafety, word, inner, after, bound, ?_⟩
  have nonempty : 0 < builderItems.length := by decide
  have within : 0 < after.length := by rwa [← same]
  have framed := frame 0 _ _ rfl (List.getElem?_eq_getElem within)
  rw [List.getElem?_eq_getElem within, (stays _ _ _ framed).2 rfl (by decide)]
  rfl

/-- A test without creation sites, and so without a key, loses a configuration. -/
theorem bindSites_erases_unkeyed :
    let test := Tree.testFunction "builds" [Tree.configuration "builder" "value" (Tree.literalExpr "1")]
    let module := Tree.inlineModule "samples" [test]
    (∃ function, test.asFunction? = some function ∧ (Sites.ofBody {} function.body).markers = []) ∧
      (bindSites {} [] module).2 = [] ∧ (bindSites {} [] module).1.tokens ≠ module.tokens := by
  intro test module
  refine ⟨⟨_, rfl, rfl⟩, rfl, ?_⟩
  decide

end TestDouble
