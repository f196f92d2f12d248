import TestDouble.Proofs.Expansion.Registration
import TestDouble.Proofs.Expansion.Strays
/-!
# What a failed expansion reports

An expansion fails exactly if the analysis or the binding of creation sites reports something, and then it
reports everything that both do, in ascending order of the messages. A test that fails has no specification,
so its name is not compared with the names of other tests; apart from that it hides nothing.
-/

namespace TestDouble

/-! ### The order of problems -/

/--
That a list holds given problems in ascending order of their messages, those of one message in their own
order.
-/
structure InMessageOrder (problems given : List Problem) : Prop where
  perm : problems.Perm given
  ascending : problems.Pairwise fun left right => left.message ≤ right.message
  stable : ∀ text, problems.filter (fun problem => decide (problem.message = text)) =
    given.filter fun problem => decide (problem.message = text)

theorem inMessageOrder_spec (problems : List Problem) : InMessageOrder (inMessageOrder problems) problems := by
  have trans : ∀ first second third : Problem, decide (first.message ≤ second.message) = true →
      decide (second.message ≤ third.message) = true → decide (first.message ≤ third.message) = true := by
    intro first second third below above
    exact decide_eq_true (String.le_trans (of_decide_eq_true below) (of_decide_eq_true above))
  have total : ∀ first second : Problem,
      (decide (first.message ≤ second.message) || decide (second.message ≤ first.message)) = true := by
    intro first second
    rcases String.le_total first.message second.message with below | above
    · exact Bool.or_eq_true_iff.mpr (.inl (decide_eq_true below))
    · exact Bool.or_eq_true_iff.mpr (.inr (decide_eq_true above))
  refine ⟨inMessageOrder_perm problems, ?_, fun text => ?_⟩
  · exact (List.pairwise_mergeSort trans total problems).imp of_decide_eq_true
  · -- problems of one message are ordered as they stand, so sorting keeps them as a sublist
    let own := problems.filter fun problem => decide (problem.message = text)
    have equal : own.Pairwise fun left right => decide (left.message ≤ right.message) = true := by
      refine List.pairwise_of_forall_mem_list fun left leftIn right rightIn => ?_
      have leftText := of_decide_eq_true (List.mem_filter.mp leftIn).2
      have rightText := of_decide_eq_true (List.mem_filter.mp rightIn).2
      exact decide_eq_true (leftText ▸ rightText ▸ String.le_refl text)
    have kept := List.sublist_mergeSort trans total equal List.filter_sublist
    have inside := kept.filter fun problem => decide (problem.message = text)
    rw [List.filter_filter] at inside
    simp only [Bool.and_self] at inside
    refine (inside.eq_of_length ?_).symm
    exact ((inMessageOrder_perm problems).filter _).length_eq.symm

/-! ### Binding without keys -/

theorem List.sublist_flatMap {α β : Type} {below above : α → List β} {entries : List α}
    (each : ∀ entry ∈ entries, (below entry).Sublist (above entry)) :
    (entries.flatMap below).Sublist (entries.flatMap above) := by
  induction entries with
  | nil => exact .refl _
  | cons first rest ih =>
      rw [List.flatMap_cons, List.flatMap_cons]
      exact (each first List.mem_cons_self).append
        (ih fun entry member => each entry (List.mem_cons_of_mem _ member))

theorem List.sublist_flatMap_of_mem {α β : Type} {f : α → List β} {entries : List α} {entry : α}
    (member : entry ∈ entries) : (f entry).Sublist (entries.flatMap f) :=
  List.sublist_flatten_of_mem (List.mem_map_of_mem member)

namespace Binder

variable {settings : Settings} {root : String}

theorem rebuilt_snd (binder : Binder) (place : Place) (kind : Kind) (children : List Tree) :
    (binder.rebuilt place kind children).2 =
      children.flatMap fun child => (binder.bind (place.inside binder.root (.node kind children)) child).2 :=
  List.flatMap_map ..

/-- A path that is called has the problems of its segments. -/
theorem called_reports {binder : Binder} (place : Place) (own : Tree) {children : List Tree} {segment : Tree}
    (inside : segment ∈ children) :
    (binder.bind place segment).2.Sublist (binder.bind place (.node .pathExpr [own, .node .path children])).2 := by
  have path : (binder.bind place segment).2.Sublist (binder.bind place (.node .path children)).2 := by
    rw [bind_ordinary (by decide : Kind.path ≠ .arguments) (by decide) (by decide), rebuilt_snd]
    exact List.sublist_flatMap_of_mem (f := fun child => (binder.bind place child).2) inside
  rw [bind_ordinary (by decide : Kind.pathExpr ≠ .arguments) (by decide) (by decide), rebuilt_snd]
  exact path.trans (List.sublist_flatMap_of_mem (f := fun child => (binder.bind place child).2) (by simp))

/-- Without keys nothing is bound, so binding goes everywhere and reports at least as much. -/
theorem bind_reports_unkeyed (keys : List String) (place : Place) (tree : Tree) :
    ((Binder.mk settings root keys).bind place tree).2.Sublist ((Binder.mk settings root []).bind place tree).2 := by
  induction size : tree.size using Nat.strongRecOn generalizing tree place with
  | ind bound ih =>
      cases tree with
      | token t => exact .refl _
      | node kind children =>
          have unbound : ¬(Binder.mk settings root []).Binds place (.node kind children) := by
            rintro ⟨_, key, _, keyed⟩
            cases keyed
          by_cases erased : (Binder.mk settings root keys).Erases place (.node kind children)
          · rw [bind_erased erased]
            exact List.nil_sublist _
          · by_cases binds : (Binder.mk settings root keys).Binds place (.node kind children)
            · obtain ⟨rfl, attributes, callee, arguments, rfl, -⟩ := marks_call binds.1
              obtain ⟨key, own, segments, last, test, _, rfl, ends, same⟩ := bind_of_binds binds
              have placed : ¬(Binder.mk settings root []).Strays place
                  (.node .call [attributes, .node .pathExpr [own, .node .path segments], arguments]) := by
                rintro ⟨_, outside⟩
                rw [Place.inTest_iff.mpr ⟨key, test⟩] at outside
                cases outside
              have lastIn : last ∈ segments := (List.mem_filter.mp (List.mem_of_getLast? ends)).1
              have front := ih _ (size ▸ Tree.size_child (by simp)) place attributes rfl
              have kept := ih _ (size ▸ size_called lastIn) place last rfl
              rw [same, bind_unkeyed unbound placed, rebuilt_snd]
              exact front.append ((kept.trans (called_reports place own lastIn)).trans (List.sublist_append_left _ _))
            · have below : ((Binder.mk settings root keys).rebuilt place kind children).2.Sublist
                  ((Binder.mk settings root []).rebuilt place kind children).2 := by
                rw [rebuilt_snd, rebuilt_snd]
                refine List.sublist_flatMap fun child member => ?_
                exact ih _ (size ▸ Tree.size_child member) _ child rfl
              have kept : ¬(Binder.mk settings root []).Erases place (.node kind children) := erased
              rcases bind_kept kept unbound with ⟨stray, reported⟩ | ⟨placed, _, silent⟩
              · have full : (Binder.mk settings root keys).Strays place (.node kind children) := stray
                obtain ⟨rfl, -⟩ := marks_call stray.1
                rw [reported, bind_stray full]
                exact below.cons_cons _
              · rcases bind_kept erased binds with ⟨stray, _⟩ | ⟨_, _, fullSilent⟩
                · exact absurd stray placed
                · rw [silent, fullSilent]
                  exact below

end Binder

theorem bindSites_reports_unkeyed (settings : Settings) (keys : List String) (module : Tree) :
    (bindSites settings keys module).2.Sublist (bindSites settings [] module).2 := by
  unfold bindSites
  split
  · dsimp only
    rw [Binder.bindAll_eq_map, Binder.bindAll_eq_map, List.flatMap_map, List.flatMap_map]
    exact List.sublist_flatMap fun item _ => Binder.bind_reports_unkeyed keys _ item
  · exact .refl _

namespace Expansion

/-- What the analysis of a module finds wrong. -/
def analysisProblems (settings : Settings) (catalog : Catalog) : List Problem :=
  match analyze settings catalog with
  | .ok _ => []
  | .error problems => problems

/-- What binding finds wrong in the expansion of a module. -/
def bindingProblems (settings : Settings) (catalog : Catalog) (module : Tree) : List Problem :=
  (bindSites settings (keys settings catalog) module).2

variable {settings : Settings} {catalog : Catalog} {module : Tree} {root : String} {items : List Tree}

/-- The analysis goes through all tests, and compares the names of those that have a specification. -/
theorem analysisProblems_eq : analysisProblems settings catalog =
    catalog.tests.flatMap (fun test => (Analysis.ofTest settings catalog test).problems) ++
      duplicateNames []
        (catalog.tests.filterMap fun test => (Analysis.ofTest settings catalog test).specification?) := by
  have all : (Analysis.all settings catalog).flatMap Analysis.problems =
      catalog.tests.flatMap fun test => (Analysis.ofTest settings catalog test).problems := List.flatMap_map ..
  have specified : (Analysis.all settings catalog).filterMap Analysis.specification? =
      catalog.tests.filterMap fun test => (Analysis.ofTest settings catalog test).specification? :=
    List.filterMap_map
  rw [← all, ← specified, analysisProblems, analyze]
  split
  · rename_i found
    split at found
    · rename_i none
      exact (List.isEmpty_iff.mp none).symm
    · cases found
  · rename_i found
    split at found
    · cases found
    · exact (Except.error.inj found).symm

theorem analysisProblems_eq_nil :
    analysisProblems settings catalog = [] ↔ ∃ specifications, analyze settings catalog = .ok specifications := by
  unfold analysisProblems
  cases analyzed : analyze settings catalog with
  | ok specifications => simp
  | error problems =>
      simp only [reduceCtorEq, exists_false, iff_false]
      rintro rfl
      unfold analyze at analyzed
      dsimp only at analyzed
      split at analyzed
      · cases analyzed
      · rename_i some
        exact some (List.isEmpty_iff.mpr (Except.error.inj analyzed))

theorem keys_eq_nil (failed : analysisProblems settings catalog ≠ []) : keys settings catalog = [] := by
  unfold keys
  cases analyzed : analyze settings catalog with
  | ok specifications => exact absurd (analysisProblems_eq_nil.mpr ⟨_, analyzed⟩) failed
  | error problems => rfl

/-- An expansion generates something only if nothing is wrong, and else reports all that is. -/
theorem expand_eq_error_iff (inline : module.asModule? = some ⟨root, some items⟩) {problems : List Problem} :
    expand settings module = .error problems ↔
      analysisProblems settings (.ofItems root items) ++ bindingProblems settings (.ofItems root items) module ≠ [] ∧
        problems = inMessageOrder (analysisProblems settings (.ofItems root items) ++
          bindingProblems settings (.ofItems root items) module) := by
  have some := @analysisProblems_eq_nil settings (.ofItems root items)
  unfold expand bindingProblems keys analysisProblems at *
  rw [ofModule_inline inline]
  dsimp only
  cases analyzed : analyze settings (.ofItems root items) with
  | error failures =>
      simp only [analyzed, reduceCtorEq, exists_false, iff_false] at some
      have filled : failures ++ (bindSites settings [] module).2 ≠ [] :=
        fun empty => some (List.append_eq_nil_iff.mp empty).1
      rw [Except.error.injEq, eq_comm, and_iff_right filled]
  | ok specifications =>
      cases sites : bindSites settings (specifications.map Specification.key) module with
      | mk bound problems =>
          cases problems with
          | nil => simp [sites]
          | cons first rest => simp only [sites, Except.error.injEq, List.nil_append, ne_eq, reduceCtorEq,
              not_false_eq_true, true_and, eq_comm]

theorem reports_test {test : Test} (member : test ∈ catalog.tests) {own : List Problem}
    (failed : Specification.ofTest catalog test (sites settings test) = .error own) {problem : Problem}
    (inside : problem ∈ own) : problem ∈ analysisProblems settings catalog := by
  rw [analysisProblems_eq]
  refine List.mem_append_left _ (List.mem_flatMap.mpr ⟨test, member, ?_⟩)
  rw [Analysis.problems, show (Analysis.ofTest settings catalog test).outcome = .error own from failed]
  exact inside

theorem reports_collision {test other : Test} (member : test ∈ catalog.tests) (otherIn : other ∈ catalog.tests)
    {specification specification' : Specification}
    (made : Specification.ofTest catalog test (sites settings test) = .ok (some specification))
    (made' : Specification.ofTest catalog other (sites settings other) = .ok (some specification'))
    (same : specification'.generatedName = specification.generatedName)
    (different : specification'.key ≠ specification.key) :
    .duplicateName specification.generatedName ∈ analysisProblems settings catalog := by
  have specified : ∀ {test specification}, test ∈ catalog.tests →
      Specification.ofTest catalog test (sites settings test) = .ok (some specification) →
      specification ∈ catalog.tests.filterMap fun test => (Analysis.ofTest settings catalog test).specification? :=
    fun member made => List.mem_filterMap.mpr ⟨_, member, specification?_eq_some.mpr made⟩
  rw [analysisProblems_eq]
  refine List.mem_append_right _ ?_
  by_contra fine
  exact different (key_of_generatedName (specified member made) (specified otherIn made') same fine)

/-- What a list of problems says about a module whose expansion failed. -/
structure Reported (settings : Settings) (root : String) (items : List Tree) (module : Tree)
    (problems : List Problem) : Prop where
  /-- Everything that the analysis and then binding report, in ascending order of the messages. -/
  ordered : InMessageOrder problems (analysisProblems settings (.ofItems root items) ++
    bindingProblems settings (.ofItems root items) module)
  /-- Whatever is wrong with a test. -/
  tests : ∀ test ∈ (Catalog.ofItems root items).tests, ∀ own,
    Specification.ofTest (.ofItems root items) test (sites settings test) = .error own →
    ∀ problem ∈ own, problem ∈ problems
  /-- The name that two tests would both get their types under. -/
  collisions : ∀ test ∈ (Catalog.ofItems root items).tests, ∀ other ∈ (Catalog.ofItems root items).tests,
    ∀ specification specification',
      Specification.ofTest (.ofItems root items) test (sites settings test) = .ok (some specification) →
      Specification.ofTest (.ofItems root items) other (sites settings other) = .ok (some specification') →
      specification'.generatedName = specification.generatedName → specification'.key ≠ specification.key →
      .duplicateName specification.generatedName ∈ problems
  /-- The creation sites outside of tests. -/
  strays : ∀ position place found, (binder settings (.ofItems root items)).Comes start items position place found →
    (binder settings (.ofItems root items)).Strays place found → .noSpecification (place.key root) ∈ problems
  /-- If the analysis fails, every creation site outside of tests that binding with any keys would report. -/
  unhidden : analysisProblems settings (.ofItems root items) ≠ [] →
    ∀ keys, ∀ problem ∈ (bindSites settings keys module).2, problem ∈ problems

/--
An expansion succeeds exactly if neither the analysis nor binding reports a problem. Otherwise nothing is
generated, and all problems of both are reported in ascending order of their messages. So a failing test
hides neither the problems of other tests, nor that two tests with specifications have the same generated
name, nor a creation site outside of tests.
-/
theorem expand_reports_everything (inline : module.asModule? = some ⟨root, some items⟩) :
    ((∃ output, expand settings module = .ok output) ↔
      (∃ specifications, analyze settings (.ofItems root items) = .ok specifications) ∧
        bindingProblems settings (.ofItems root items) module = []) ∧
      ∀ problems, expand settings module = .error problems → Reported settings root items module problems := by
  constructor
  · rw [← analysisProblems_eq_nil, ← List.append_eq_nil_iff]
    constructor
    · rintro ⟨output, expanded⟩
      by_contra filled
      have failed := (expand_eq_error_iff inline).mpr ⟨filled, rfl⟩
      rw [expanded] at failed
      cases failed
    · intro none
      cases expanded : expand settings module with
      | ok output => exact ⟨output, rfl⟩
      | error problems => exact absurd none ((expand_eq_error_iff inline).mp expanded).1
  · intro problems failed
    obtain ⟨_, rfl⟩ := (expand_eq_error_iff inline).mp failed
    have ordered := inMessageOrder_spec (analysisProblems settings (.ofItems root items) ++
      bindingProblems settings (.ofItems root items) module)
    have analysed : ∀ {problem}, problem ∈ analysisProblems settings (.ofItems root items) →
        problem ∈ inMessageOrder _ :=
      fun inside => ordered.perm.mem_iff.mpr (List.mem_append_left _ inside)
    have bound : ∀ {problem}, problem ∈ bindingProblems settings (.ofItems root items) module →
        problem ∈ inMessageOrder _ :=
      fun inside => ordered.perm.mem_iff.mpr (List.mem_append_right _ inside)
    refine ⟨ordered, ?_, ?_, ?_, ?_⟩
    · intro test member own failing problem inside
      exact analysed (reports_test member failing inside)
    · intro test member other otherIn specification specification' made made' same different
      exact analysed (reports_collision member otherIn made made' same different)
    · intro position place found comes stray
      exact bound ((mem_bindSites inline).mpr ⟨position, place, found, comes, stray, rfl⟩)
    · intro failing keys problem reported
      have unkeyed := (bindSites_reports_unkeyed settings keys module).subset reported
      rw [← keys_eq_nil failing] at unkeyed
      exact bound unkeyed

/-- A helper that creates a double, a test of an unknown trait, and two tests of the same generated name. -/
def faultyItems : List Tree :=
  [Tree.plainTrait "I" [], Tree.plainFunction "helper" [Tree.creation "Ghost" ["I"]],
    Tree.testFunction "t" [Tree.creation "Ghost" ["Missing"]],
    Tree.inlineModule "a_b" [Tree.testFunction "c" [Tree.creation "Ghost" ["super", "I"]]],
    Tree.inlineModule "a" [Tree.testFunction "b_c" [Tree.creation "Ghost" ["super", "I"]]]]

theorem expand_reports_faulty :
    ∃ problems, expand {} (Tree.inlineModule "samples" faultyItems) = .error problems ∧
      InMessageOrder problems [.unresolvableContract "cannot find trait `Missing`",
        .duplicateName "samples_a_b_c", .noSpecification "samples::helper"] := by
  have inline : (Tree.inlineModule "samples" faultyItems).asModule? = some ⟨"samples", some faultyItems⟩ := rfl
  have failed := (@expand_eq_error_iff {} _ _ _ inline _).mpr ⟨nofun, rfl⟩
  exact ⟨_, failed, ((expand_reports_everything inline).2 _ failed).ordered⟩

/-- Two tests of the same generated name, of which the first one names an unknown trait. -/
def hiddenItems : List Tree :=
  [Tree.plainTrait "I" [],
    Tree.inlineModule "a_b" [Tree.testFunction "c" [Tree.creation "Ghost" ["Missing"]]],
    Tree.inlineModule "a" [Tree.testFunction "b_c" [Tree.creation "Ghost" ["super", "I"]]]]

/-- A test that fails has no specification, and so hides that another test has the same generated name. -/
theorem collision_hidden :
    ∃ test ∈ (Catalog.ofItems "samples" hiddenItems).tests, ∃ other ∈ (Catalog.ofItems "samples" hiddenItems).tests,
      (sites {} test).markers ≠ [] ∧ (sites {} other).markers ≠ [] ∧
        Name.generated "samples" test.module test.function.name =
          Name.generated "samples" other.module other.function.name ∧
        test.key "samples" ≠ other.key "samples" ∧
        expand {} (Tree.inlineModule "samples" hiddenItems) =
          .error [.unresolvableContract "cannot find trait `Missing`"] := by
  have inline : (Tree.inlineModule "samples" hiddenItems).asModule? = some ⟨"samples", some hiddenItems⟩ := rfl
  have failed : expand {} (Tree.inlineModule "samples" hiddenItems) =
      .error (inMessageOrder [.unresolvableContract "cannot find trait `Missing`"]) :=
    (expand_eq_error_iff inline).mpr ⟨nofun, rfl⟩
  rw [inMessageOrder, List.mergeSort_singleton] at failed
  exact ⟨_, .head _, _, .tail _ (.head _), nofun, nofun, by decide, by decide, failed⟩

end Expansion

end TestDouble
