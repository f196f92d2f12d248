import TestDouble.Proofs.Source.Parts
import TestDouble.Site.Bind
/-!
# What binding does to one node

Binding takes a configuration in a test away, binds a creation site of a test with a key, reports a
creation site outside of tests, and puts every other node together again from its bound children.
-/

namespace TestDouble

namespace Place

theorem inTest_iff {place : Place} : place.inTest = true ↔ ∃ key, place.function = some (key, true) := by
  unfold inTest
  cases around : place.function with
  | none => simp
  | some function =>
      obtain ⟨key, test⟩ := function
      simp

end Place

namespace Settings

/-- A creation site calls a path of two segments, of which the last one is kept when it is bound. -/
theorem isMarker_callee {settings : Settings} {call : Call} (marker : settings.isMarker call = true) :
    ∃ own children first last, call.callee = .node .pathExpr [own, .node .path children] ∧
      (Tree.node .path children).segments = [first, last] ∧ first.segmentName = settings.dispatcher ∧
      last.segmentName = "of" := by
  unfold isMarker at marker
  split at marker
  · rename_i own children callee
    have names := eq_of_beq (Bool.and_eq_true_iff.mp marker).2
    unfold Tree.names at names
    obtain ⟨first, rest, segments, opens, more⟩ := List.map_eq_cons_iff.mp names
    obtain ⟨last, none, ends, closes, empty⟩ := List.map_eq_cons_iff.mp more
    rw [List.map_eq_nil_iff.mp empty] at ends
    rw [ends] at segments
    exact ⟨own, children, first, last, callee, segments, opens, closes⟩
  · cases marker

end Settings

namespace Binder

theorem isConfiguration_iff {settings : Settings} {tree : Tree} : isConfiguration settings tree = true ↔
    ∃ call inner, tree.asMethodCall? = some call ∧ call.name = settings.returns ∧
      call.receiver.asMethodCall? = some inner := by
  unfold isConfiguration
  cases viewed : tree.asMethodCall? with
  | none => simp
  | some call =>
      have configures : (settings.configuredMethod? call).isSome = true ↔
          call.name = settings.returns ∧ call.receiver.asMethodCall?.isSome = true := by
        unfold Settings.configuredMethod?
        split <;> simp [*]
      simp [configures, Option.isSome_iff_exists]

theorem kind_of_isConfiguration {settings : Settings} {kind : Kind} {children : List Tree}
    (configuration : isConfiguration settings (.node kind children) = true) : kind = .methodCall := by
  obtain ⟨call, -, viewed, -⟩ := isConfiguration_iff.mp configuration
  obtain ⟨attributes, dot, generics, same⟩ := Tree.asMethodCall?_iff.mp viewed
  exact (Tree.node.inj same).1

variable (binder : Binder)

def Marks (tree : Tree) : Prop := ∃ call, tree.asCall? = some call ∧ binder.settings.isMarker call = true

/-- That binding takes a node away. -/
def Erases (place : Place) (tree : Tree) : Prop :=
  tree.kind? = some .methodCall ∧ place.inTest = true ∧ isConfiguration binder.settings tree = true

/-- That binding binds a node to the key of the test around it. -/
def Binds (place : Place) (tree : Tree) : Prop :=
  binder.Marks tree ∧ ∃ key, place.function = some (key, true) ∧ key ∈ binder.keys

/-- That binding reports a node. -/
def Strays (place : Place) (tree : Tree) : Prop := binder.Marks tree ∧ place.inTest = false

variable {binder}

theorem marks_call {kind : Kind} {children : List Tree} (marks : binder.Marks (.node kind children)) :
    kind = .call ∧ ∃ attributes callee arguments, children = [attributes, callee, arguments] ∧
      binder.settings.isMarker ⟨attributes, callee, arguments⟩ = true := by
  obtain ⟨call, viewed, marker⟩ := marks
  cases Call.asCall?_iff.mp viewed
  exact ⟨rfl, _, _, _, rfl, marker⟩

theorem inside_call (place : Place) (root : String) (children : List Tree) :
    place.inside root (.node .call children) = place := rfl

/-- A node put together again from its bound children, with their problems. -/
def rebuilt (binder : Binder) (place : Place) (kind : Kind) (children : List Tree) : Bound :=
  let bound := children.map (binder.bind (place.inside binder.root (.node kind children)))
  (.node kind (bound.map (·.1)), bound.flatMap (·.2))

theorem bind_ordinary {kind : Kind} (notArguments : kind ≠ .arguments) (notMethod : kind ≠ .methodCall)
    (notCall : kind ≠ .call) (place : Place) (children : List Tree) :
    binder.bind place (.node kind children) = binder.rebuilt place kind children := by
  rw [bind, bindAll_eq_map]
  unfold assemble
  split
  · exact absurd rfl notArguments
  · exact absurd rfl notMethod
  · exact absurd rfl notCall
  · rfl

theorem bind_arguments (place : Place) (children : List Tree) :
    binder.bind place (.node .arguments children) =
      (invocationArguments children ((children.map (binder.bind place)).map (·.1)),
        (children.map (binder.bind place)).flatMap (·.2)) := by
  rw [bind, bindAll_eq_map]
  rfl

theorem bind_erased {place : Place} {tree : Tree} (erased : binder.Erases place tree) :
    binder.bind place tree = (unit, []) := by
  obtain ⟨method, test, configuration⟩ := erased
  cases tree with
  | token t => cases method
  | node kind children =>
      cases method
      rw [bind]
      exact if_pos (Bool.and_eq_true_iff.mpr ⟨test, configuration⟩)

theorem bind_methodCall {place : Place} {children : List Tree}
    (kept : ¬binder.Erases place (.node .methodCall children)) :
    binder.bind place (.node .methodCall children) = binder.rebuilt place .methodCall children := by
  rw [bind, bindAll_eq_map]
  apply if_neg
  intro both
  have parts := Bool.and_eq_true_iff.mp both
  exact kept ⟨rfl, parts.1, parts.2⟩

theorem marked_iff (children : List Tree) :
    ((Tree.node .call children).asCall?.map binder.settings.isMarker).getD false = true ↔
      binder.Marks (.node .call children) := by
  unfold Marks
  cases viewed : (Tree.node .call children).asCall? with
  | none => simp
  | some call => simp

theorem bind_unmarked {place : Place} {children : List Tree} (unmarked : ¬binder.Marks (.node .call children)) :
    binder.bind place (.node .call children) = binder.rebuilt place .call children := by
  rw [bind, bindAll_eq_map]
  exact if_neg fun marked => unmarked ((marked_iff children).mp marked)

theorem bind_stray {place : Place} {children : List Tree} (stray : binder.Strays place (.node .call children)) :
    binder.bind place (.node .call children) =
      ((binder.rebuilt place .call children).1,
        .noSpecification (place.key binder.root) :: (binder.rebuilt place .call children).2) := by
  rw [bind, bindAll_eq_map]
  refine (if_pos ((marked_iff children).mpr stray.1)).trans ?_
  split
  · rename_i key test
    have inTest := Place.inTest_iff.mpr ⟨key, test⟩
    rw [stray.2] at inTest
    cases inTest
  · rfl

/-! ### Creation sites with a key -/

theorem call_kind?_bind (place : Place) (children : List Tree) :
    (binder.bind place (.node .call children)).1.kind? = some .call := by
  rw [bind, bindAll_eq_map]
  simp only [assemble]
  split
  · split
    · split
      · split <;> rfl
      · rfl
    · rfl
  · rfl

theorem kind?_bind (place : Place) (tree : Tree) :
    (binder.bind place tree).1.kind? = some .segment ↔ tree.kind? = some .segment := by
  cases tree with
  | token t => exact Iff.rfl
  | node kind children =>
      by_cases arguments : kind = .arguments
      · subst arguments
        rw [bind_arguments]
        unfold invocationArguments
        simp only
        split <;> simp [Tree.kind?]
      · by_cases method : kind = .methodCall
        · subst method
          by_cases erased : binder.Erases place (.node .methodCall children)
          · simp [bind_erased erased, unit, Tree.kind?]
          · simp [bind_methodCall erased, rebuilt, Tree.kind?]
        · by_cases call : kind = .call
          · subst call
            rw [call_kind?_bind]
            simp [Tree.kind?]
          · rw [bind_ordinary arguments method call]
            exact Iff.rfl

theorem bindLast_eq (place : Place) {attributes own arguments : Tree} {children : List Tree} {last : Tree}
    (ends : (Tree.node .path children).segments.getLast? = some last) :
    binder.bindLast place [attributes, .node .pathExpr [own, .node .path children], arguments] =
      some (binder.bind place last) := by
  have kept : (children.map (binder.bind place)).filter (fun bound => bound.1.kind? == some .segment) =
      (children.filter fun part => part.kind? == some .segment).map (binder.bind place) := by
    rw [List.filter_map]
    congr 1
    apply List.filter_congr
    intro part _
    show ((binder.bind place part).1.kind? == some Kind.segment) = (part.kind? == some Kind.segment)
    rw [Bool.eq_iff_iff, beq_iff_eq, beq_iff_eq]
    exact kind?_bind place part
  have found : (children.filter fun part => part.kind? == some .segment).getLast? = some last := ends
  rw [bindLast, bindAll_eq_map, kept, List.getLast?_map, found]
  rfl

/-- A creation site of a test with a key calls the dispatcher, and keeps its attributes and last segment. -/
theorem bind_bound {place : Place} {key : String} (test : place.function = some (key, true))
    (keyed : key ∈ binder.keys) {attributes own arguments : Tree} {children : List Tree}
    (marker : binder.settings.isMarker ⟨attributes, .node .pathExpr [own, .node .path children], arguments⟩ = true)
    {last : Tree} (ends : (Tree.node .path children).segments.getLast? = some last) :
    binder.bind place (.node .call [attributes, .node .pathExpr [own, .node .path children], arguments]) =
      (binder.boundCall place key (binder.bind place attributes).1 (binder.bind place last).1,
        (binder.bind place attributes).2 ++ (binder.bind place last).2) := by
  have marks : binder.Marks (.node .call [attributes, .node .pathExpr [own, .node .path children], arguments]) :=
    ⟨_, rfl, marker⟩
  rw [bind, bindAll_eq_map, inside_call, bindLast_eq place ends]
  refine (if_pos ((marked_iff _).mpr marks)).trans ?_
  rw [test]
  exact if_pos (List.contains_iff_mem.mpr keyed)

theorem bind_of_binds {place : Place} {attributes callee arguments : Tree}
    (bound : binder.Binds place (.node .call [attributes, callee, arguments])) :
    ∃ key own children last, place.function = some (key, true) ∧ key ∈ binder.keys ∧
      callee = .node .pathExpr [own, .node .path children] ∧
      (Tree.node .path children).segments.getLast? = some last ∧
      binder.bind place (.node .call [attributes, callee, arguments]) =
        (binder.boundCall place key (binder.bind place attributes).1 (binder.bind place last).1,
          (binder.bind place attributes).2 ++ (binder.bind place last).2) := by
  obtain ⟨⟨call, viewed, marker⟩, key, test, keyed⟩ := bound
  cases viewed
  obtain ⟨own, children, first, last, rfl, segments, -, -⟩ := Settings.isMarker_callee marker
  have ends : (Tree.node .path children).segments.getLast? = some last := by
    rw [segments]
    rfl
  exact ⟨key, own, children, last, test, keyed, rfl, ends, bind_bound test keyed marker ends⟩

theorem bind_unkeyed {place : Place} {children : List Tree} (unbound : ¬binder.Binds place (.node .call children))
    (placed : ¬binder.Strays place (.node .call children)) :
    binder.bind place (.node .call children) = binder.rebuilt place .call children := by
  by_cases marks : binder.Marks (.node .call children)
  · have inTest : place.inTest = true := by
      cases outside : place.inTest with
      | false => exact absurd ⟨marks, outside⟩ placed
      | true => rfl
    obtain ⟨key, test⟩ := Place.inTest_iff.mp inTest
    have unkeyed : binder.keys.contains key = false := by
      cases keyed : binder.keys.contains key with
      | false => rfl
      | true => exact absurd ⟨marks, key, test, List.contains_iff_mem.mp keyed⟩ unbound
    rw [bind, bindAll_eq_map]
    refine (if_pos ((marked_iff children).mpr marks)).trans ?_
    rw [test]
    split
    · rename_i same
      cases same
      split
      · rw [unkeyed]
        rfl
      · rfl
    · rename_i other
      exact absurd rfl (other key)
  · exact bind_unmarked marks

/-! ### Problems -/

theorem mem_rebuilt {place : Place} {kind : Kind} {children : List Tree} {problem : Problem} :
    problem ∈ (binder.rebuilt place kind children).2 ↔
      ∃ child ∈ children, problem ∈ (binder.bind (place.inside binder.root (.node kind children)) child).2 := by
  unfold rebuilt
  simp only [List.mem_flatMap, List.mem_map]
  constructor
  · rintro ⟨_, ⟨child, member, rfl⟩, inside⟩
    exact ⟨child, member, inside⟩
  · rintro ⟨child, member, inside⟩
    exact ⟨_, ⟨child, member, rfl⟩, inside⟩

/-- What is neither taken away nor bound is put together again, the arguments of invocations apart. -/
theorem bind_kept {place : Place} {kind : Kind} {children : List Tree}
    (whole : ¬binder.Erases place (.node kind children)) (unbound : ¬binder.Binds place (.node kind children)) :
    (binder.Strays place (.node kind children) ∧
      binder.bind place (.node kind children) = ((binder.rebuilt place kind children).1,
        .noSpecification (place.key binder.root) :: (binder.rebuilt place kind children).2)) ∨
      ¬binder.Strays place (.node kind children) ∧
        (kind ≠ .arguments →
          (binder.bind place (.node kind children)).1 = (binder.rebuilt place kind children).1) ∧
        (binder.bind place (.node kind children)).2 = (binder.rebuilt place kind children).2 := by
  by_cases stray : binder.Strays place (.node kind children)
  · obtain ⟨rfl, -⟩ := marks_call stray.1
    exact .inl ⟨stray, bind_stray stray⟩
  · refine .inr ⟨stray, ?_⟩
    by_cases arguments : kind = .arguments
    · subst arguments
      rw [bind_arguments]
      exact ⟨fun other => absurd rfl other, rfl⟩
    · by_cases method : kind = .methodCall
      · subst method
        rw [bind_methodCall whole]
        exact ⟨fun _ => rfl, rfl⟩
      · by_cases call : kind = .call
        · subst call
          rw [bind_unkeyed unbound stray]
          exact ⟨fun _ => rfl, rfl⟩
        · rw [bind_ordinary arguments method call]
          exact ⟨fun _ => rfl, rfl⟩

theorem bind_fst_kept {place : Place} {kind : Kind} {children : List Tree}
    (whole : ¬binder.Erases place (.node kind children)) (unbound : ¬binder.Binds place (.node kind children))
    (other : kind ≠ .arguments) :
    (binder.bind place (.node kind children)).1 = (binder.rebuilt place kind children).1 := by
  rcases bind_kept whole unbound with ⟨_, bound⟩ | ⟨_, same, _⟩
  · rw [bound]
  · exact same other

/-- That binding may put a node of a kind in the place of one: a unit for a configuration, a call for a creation
site, and the arguments of an invocation, which it writes out again if they changed. -/
inductive Remakes : Kind → Kind → Prop where
  | configuration : Remakes .methodCall .tuple
  | marker : Remakes .call .call
  | invocation : Remakes .arguments .arguments

/-- Binding makes another node or puts the node together again from its bound children. -/
theorem bind_shape (place : Place) (kind : Kind) (children : List Tree) :
    (∃ other news, Remakes kind other ∧ (binder.bind place (.node kind children)).1 = .node other news) ∨
      (binder.bind place (.node kind children)).1 = (binder.rebuilt place kind children).1 := by
  by_cases erased : binder.Erases place (.node kind children)
  · have same := congrArg Prod.fst (bind_erased erased)
    obtain ⟨method, -, -⟩ := erased
    cases method
    exact .inl ⟨_, _, .configuration, same⟩
  by_cases binds : binder.Binds place (.node kind children)
  · obtain ⟨rfl, attributes, callee, arguments, rfl, -⟩ := marks_call binds.1
    obtain ⟨key, own, segments, last, -, -, -, -, same⟩ := bind_of_binds binds
    exact .inl ⟨_, _, .marker, congrArg Prod.fst same⟩
  by_cases arguments : kind = .arguments
  · subst arguments
    rw [bind_arguments]
    unfold invocationArguments
    dsimp only
    split <;> exact .inl ⟨_, _, .invocation, rfl⟩
  · exact .inr (bind_fst_kept erased binds arguments)

/-- A node that is neither taken away nor bound has the problems of its children, behind its own. -/
theorem mem_bind_kept {place : Place} {kind : Kind} {children : List Tree}
    (whole : ¬binder.Erases place (.node kind children)) (unbound : ¬binder.Binds place (.node kind children))
    {problem : Problem} :
    problem ∈ (binder.bind place (.node kind children)).2 ↔
      (binder.Strays place (.node kind children) ∧ problem = .noSpecification (place.key binder.root)) ∨
        problem ∈ (binder.rebuilt place kind children).2 := by
  rcases bind_kept whole unbound with ⟨stray, bound⟩ | ⟨placed, _, same⟩
  · rw [bound]
    simp only [List.mem_cons, stray, true_and]
  · rw [same]
    simp only [placed, false_and, false_or]

end Binder

theorem bindSites_inline (settings : Settings) (keys : List String) (attributes visibility unsafety word inner : Tree)
    (root : String) (items : List Tree) :
    let binder : Binder := { settings, root, keys }
    bindSites settings keys (.node .itemMod [attributes, visibility, unsafety, word, Tree.ident root,
      .group .brace (inner :: items)]) =
        (.node .itemMod [attributes, visibility, unsafety, word, Tree.ident root,
          .group .brace (inner :: items.map fun item => (binder.bind ⟨[], none⟩ item).1)],
        items.flatMap fun item => (binder.bind ⟨[], none⟩ item).2) := by
  intro binder
  show (Tree.node .itemMod [attributes, visibility, unsafety, word, Tree.ident root,
    .group .brace (inner :: (binder.bindAll ⟨[], none⟩ items).map (·.1))], (binder.bindAll ⟨[], none⟩ items).flatMap (·.2)) = _
  rw [Binder.bindAll_eq_map, List.map_map, List.flatMap_map]
  rfl

end TestDouble
