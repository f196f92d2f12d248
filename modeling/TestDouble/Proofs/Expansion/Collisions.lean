import TestDouble.Proofs.Expansion.Reports
/-!
# When generated names collide

Keys tell the tests of a module apart, generated names need not: `a_b` with `c` and `a` with `b_c` join to the
same name. The analysis compares every specification with the latest one of its name only. Still it reports a
name exactly if two specifications with different keys have it, wherever they stand.
-/

namespace TestDouble.Expansion

variable {settings : Settings} {catalog : Catalog} {specifications : List Specification} {module : Tree}
  {root : String} {items : List Tree}

/-- A name is reported exactly if two specifications that use it have different keys. -/
theorem mem_duplicateNames {name : String} :
    .duplicateName name ∈ duplicateNames [] specifications ↔
      ∃ first ∈ specifications, ∃ second ∈ specifications,
        first.generatedName = name ∧ second.generatedName = name ∧ first.key ≠ second.key := by
  constructor
  · intro reported
    by_contra apart
    have agreed : ∀ first ∈ specifications, ∀ second ∈ specifications,
        first.generatedName = name → second.generatedName = name → first.key = second.key := by
      intro first firstIn second secondIn own other
      by_contra different
      exact apart ⟨first, firstIn, second, secondIn, own, other, different⟩
    -- all specifications of the name have the key of any one of them
    refine absurd reported (not_mem_duplicateNames.mpr ?_)
    by_cases used : ∃ first ∈ specifications, first.generatedName = name
    · obtain ⟨first, firstIn, own⟩ := used
      exact ⟨first.key, nofun, fun second secondIn other => agreed second secondIn first firstIn other own⟩
    · exact ⟨name, nofun, fun first firstIn own => absurd ⟨first, firstIn, own⟩ used⟩
  · rintro ⟨first, firstIn, second, secondIn, rfl, same, different⟩
    by_contra fine
    exact different (key_of_generatedName firstIn secondIn same fine).symm

/-- The problems of a name are the only ones that an analysis can add to those of single tests. -/
theorem kind_of_duplicateNames {used : List (String × String)} {problem : Problem}
    (reported : problem ∈ duplicateNames used specifications) : ∃ name, problem = .duplicateName name := by
  induction specifications generalizing used with
  | nil => cases reported
  | cons first rest ih =>
      rw [duplicateNames, List.mem_append] at reported
      rcases reported with own | later
      · exact ⟨_, List.mem_singleton.mp (List.mem_ite_nil_right.mp own).2⟩
      · exact ih later

/-- That a test has a specification. -/
def Specifies (settings : Settings) (catalog : Catalog) (test : Test) (specification : Specification) : Prop :=
  test ∈ catalog.tests ∧ Specification.ofTest catalog test (sites settings test) = .ok (some specification)

/-- That two tests in different modules or of different names, raw or not, get types of the same name. -/
def Collides (settings : Settings) (catalog : Catalog) (name : String) : Prop :=
  ∃ test specification other specification', Specifies settings catalog test specification ∧
    Specifies settings catalog other specification' ∧ test.identity ≠ other.identity ∧
    specification.generatedName = name ∧ specification'.generatedName = name

/-- If every test is specified or has no creation sites, the analysis reports what is wrong with names only. -/
theorem analysisProblems_of_extracted
    (extracted : ∀ test ∈ catalog.tests, ∃ found, Specification.ofTest catalog test (sites settings test) = .ok found) :
    analysisProblems settings catalog = duplicateNames []
      (catalog.tests.filterMap fun test => (Analysis.ofTest settings catalog test).specification?) := by
  have fine : catalog.tests.flatMap (fun test => (Analysis.ofTest settings catalog test).problems) = [] := by
    rw [List.flatMap_eq_nil_iff]
    intro test member
    obtain ⟨found, made⟩ := extracted test member
    rw [Analysis.problems, show (Analysis.ofTest settings catalog test).outcome = .ok found from made]
  rw [analysisProblems_eq, fine, List.nil_append]

/-- Specifications have the same key exactly if nothing tells their tests apart. -/
theorem specified_key_eq_iff (rooted : Name.isValid root = true) (formed : ∀ item ∈ items, item.wellFormed = true)
    {test other : Test} {specification specification' : Specification}
    (made : Specifies settings (.ofItems root items) test specification)
    (made' : Specifies settings (.ofItems root items) other specification') :
    specification.key = specification'.key ↔ test.identity = other.identity := by
  rw [key_of_test made.2, key_of_test made'.2]
  exact Catalog.key_eq_iff rooted formed made.1 made'.1

/--
Collisions are found exactly. If the analysis of every single test of a module succeeds, two specifications have
the same key if and only if their tests stand in modules of one path under one name, raw prefixes apart. The
analysis of the module reports a name if and only if two specifications of tests that differ in this have it,
wherever they stand, and it reports nothing else; so it succeeds if and only if no names collide.
-/
theorem analyze_collisions (formed : module.wellFormed = true) (inline : module.asModule? = some ⟨root, some items⟩)
    (extracted : ∀ test ∈ (Catalog.ofItems root items).tests, ∃ found,
      Specification.ofTest (.ofItems root items) test (sites settings test) = .ok found) :
    (∀ test specification other specification', Specifies settings (.ofItems root items) test specification →
        Specifies settings (.ofItems root items) other specification' →
        (specification.key = specification'.key ↔ test.identity = other.identity)) ∧
      (∀ name, .duplicateName name ∈ analysisProblems settings (.ofItems root items) ↔
        Collides settings (.ofItems root items) name) ∧
      (∀ problem ∈ analysisProblems settings (.ofItems root items), ∃ name, problem = .duplicateName name) ∧
      ((∃ specifications, analyze settings (.ofItems root items) = .ok specifications) ↔
        ∀ name, ¬Collides settings (.ofItems root items) name) := by
  have rooted := Tree.isValid_module inline formed
  have itemsFormed := Tree.wellFormed_content inline formed
  have reports := analysisProblems_of_extracted extracted
  have specified : ∀ specification, specification ∈ ((Catalog.ofItems root items).tests.filterMap fun test =>
      (Analysis.ofTest settings (.ofItems root items) test).specification?) ↔
        ∃ test, Specifies settings (.ofItems root items) test specification := by
    intro specification
    rw [List.mem_filterMap]
    exact exists_congr fun test => and_congr_right fun _ => specification?_eq_some
  have exact : ∀ name, .duplicateName name ∈ analysisProblems settings (.ofItems root items) ↔
      Collides settings (.ofItems root items) name := by
    intro name
    rw [reports, mem_duplicateNames]
    constructor
    · rintro ⟨first, firstIn, second, secondIn, own, other, different⟩
      obtain ⟨test, made⟩ := (specified first).mp firstIn
      obtain ⟨test', made'⟩ := (specified second).mp secondIn
      refine ⟨test, first, test', second, made, made', fun same => different ?_, own, other⟩
      exact (specified_key_eq_iff rooted itemsFormed made made').mpr same
    · rintro ⟨test, first, test', second, made, made', different, own, other⟩
      refine ⟨first, (specified first).mpr ⟨test, made⟩, second, (specified second).mpr ⟨test', made'⟩, own, other, ?_⟩
      exact fun same => different ((specified_key_eq_iff rooted itemsFormed made made').mp same)
  have only : ∀ problem ∈ analysisProblems settings (.ofItems root items), ∃ name, problem = .duplicateName name := by
    intro problem reported
    rw [reports] at reported
    exact kind_of_duplicateNames reported
  refine ⟨fun _ _ _ _ => specified_key_eq_iff rooted itemsFormed, exact, only, ?_⟩
  rw [← analysisProblems_eq_nil, List.eq_nil_iff_forall_not_mem]
  constructor
  · exact fun none name collides => none _ ((exact name).mpr collides)
  · intro none problem reported
    obtain ⟨name, rfl⟩ := only problem reported
    exact none name ((exact name).mp reported)

/-- Three tests with the same generated name, of which the first and the last also have the same key. -/
def collidingItems : List Tree :=
  [Tree.plainTrait "I" [],
    Tree.inlineModule "a_b" [Tree.testFunction "c" [Tree.creation "Ghost" ["super", "I"]]],
    Tree.inlineModule "a" [Tree.testFunction "b_c" [Tree.creation "Ghost" ["super", "I"]]],
    Tree.inlineModule "r#a_b" [Tree.testFunction "r#c" [Tree.creation "Ghost" ["super", "I"]]]]

theorem analyze_collisions_joined :
    (∃ first second third, (Catalog.ofItems "samples" collidingItems).tests = [first, second, third] ∧
      first.identity = third.identity ∧ first.identity ≠ second.identity) ∧
      .duplicateName "samples_a_b_c" ∈ analysisProblems {} (.ofItems "samples" collidingItems) ∧
      Collides {} (.ofItems "samples" collidingItems) "samples_a_b_c" := by
  have formed : (Tree.inlineModule "samples" collidingItems).wellFormed = true := by decide
  have inline : (Tree.inlineModule "samples" collidingItems).asModule? = some ⟨"samples", some collidingItems⟩ := rfl
  have extracted : ∀ test ∈ (Catalog.ofItems "samples" collidingItems).tests, ∃ found,
      Specification.ofTest (.ofItems "samples" collidingItems) test (sites {} test) = .ok found := by
    intro test member
    rcases member with _ | ⟨_, _ | ⟨_, _ | ⟨_, none⟩⟩⟩
    · exact ⟨_, rfl⟩
    · exact ⟨_, rfl⟩
    · exact ⟨_, rfl⟩
    · cases none
  have collides : Collides {} (.ofItems "samples" collidingItems) "samples_a_b_c" :=
    ⟨_, _, _, _, ⟨.head _, rfl⟩, ⟨.tail _ (.head _), rfl⟩, by decide, rfl, rfl⟩
  obtain ⟨-, exact, -⟩ := analyze_collisions formed inline extracted
  exact ⟨⟨_, _, _, rfl, by decide, by decide⟩, (exact _).mpr collides, collides⟩

end TestDouble.Expansion
