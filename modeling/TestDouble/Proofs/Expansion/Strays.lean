import TestDouble.Expansion
import TestDouble.Proofs.Site.Placement
import TestDouble.Proofs.Source.Plain
/-!
# Creation sites outside of tests

An expansion succeeds exactly if the analysis does and every creation site that the walk of binding comes
to stands in a test: the innermost function around it has the attribute of a test. Such a function need not
be one of the collected tests, so a creation site may pass although it stands in no body of these.
-/

namespace TestDouble

namespace Expansion

/-- The keys that creation sites are bound to: none if the analysis fails. -/
def keys (settings : Settings) (catalog : Catalog) : List String :=
  match analyze settings catalog with
  | .ok specifications => specifications.map Specification.key
  | .error _ => []

def binder (settings : Settings) (catalog : Catalog) : Binder :=
  { settings, root := catalog.root, keys := keys settings catalog }

def start : Place := ⟨[], none⟩

variable {settings : Settings} {module : Tree} {root : String} {items : List Tree}

theorem ofModule_inline (inline : module.asModule? = some ⟨root, some items⟩) :
    Catalog.ofModule module = .ok (.ofItems root items) := by
  rw [Catalog.ofModule, inline]

theorem expand_eq_ok_iff (inline : module.asModule? = some ⟨root, some items⟩) {output : Tree} :
    expand settings module = .ok output ↔
      ∃ specifications bound, analyze settings (.ofItems root items) = .ok specifications ∧
        bindSites settings (specifications.map Specification.key) module = (bound, []) ∧
        output = emit settings specifications bound := by
  unfold expand
  rw [ofModule_inline inline]
  dsimp only
  cases analyzed : analyze settings (.ofItems root items) with
  | error problems => simp
  | ok specifications =>
      cases sites : bindSites settings (specifications.map Specification.key) module with
      | mk bound problems =>
          cases problems with
          | nil => simp [sites, eq_comm]
          | cons first rest => simp [sites]

/-- Whatever binding reports is among the problems of a failed expansion. -/
theorem expand_reports (inline : module.asModule? = some ⟨root, some items⟩) {problem : Problem}
    (reported : problem ∈ (bindSites settings (keys settings (.ofItems root items)) module).2) :
    ∃ problems, expand settings module = .error problems ∧ problem ∈ problems := by
  unfold expand
  rw [ofModule_inline inline]
  dsimp only
  unfold keys at reported
  cases analyzed : analyze settings (.ofItems root items) with
  | error problems =>
      rw [analyzed] at reported
      refine ⟨_, rfl, (inMessageOrder_perm _).mem_iff.mpr ?_⟩
      exact List.mem_append_right _ reported
  | ok specifications =>
      rw [analyzed] at reported
      cases sites : bindSites settings (specifications.map Specification.key) module with
      | mk bound problems =>
          simp only [sites] at reported
          cases problems with
          | nil => cases reported
          | cons first rest =>
              refine ⟨_, ?_, (inMessageOrder_perm (first :: rest)).mem_iff.mpr reported⟩
              simp [sites]

/-- Binding reports the creation sites outside of tests that it comes to. -/
theorem mem_bindSites (inline : module.asModule? = some ⟨root, some items⟩) {keys : List String} {problem : Problem} :
    problem ∈ (bindSites settings keys module).2 ↔
      ∃ position place found, Binder.Comes ⟨settings, root, keys⟩ start items position place found ∧
        Binder.Strays ⟨settings, root, keys⟩ place found ∧ problem = .noSpecification (place.key root) := by
  obtain ⟨attributes, visibility, unsafety, word, inner, rfl⟩ := Tree.inline_module_shape inline
  show problem ∈ ((Binder.bindAll ⟨settings, root, keys⟩ start items).flatMap (·.2)) ↔ _
  rw [Binder.bindAll_eq_map, List.mem_flatMap]
  constructor
  · rintro ⟨bound, member, reported⟩
    obtain ⟨item, itemIn, rfl⟩ := List.mem_map.mp member
    obtain ⟨index, itemAt⟩ := List.getElem?_of_mem itemIn
    obtain ⟨position, place, found, visited, stray⟩ := Binder.reported_stray reported
    exact ⟨index :: position, place, found, ⟨index, position, item, rfl, itemAt, visited⟩, stray⟩
  · rintro ⟨_, place, found, ⟨index, position, item, rfl, itemAt, visited⟩, stray, rfl⟩
    exact ⟨_, List.mem_map_of_mem (List.mem_of_getElem? itemAt), Binder.stray_reported visited stray⟩

/--
Which creation sites an expansion accepts. It succeeds exactly if the analysis does and every creation
site that binding comes to has a test as the innermost function around it; any other creation site makes
it fail, with a problem of its own. A creation site with such a function around it stands in the body of a
collected test exactly if no item comes between it and the function of the module that it stands in.
-/
theorem expand_strays (inline : module.asModule? = some ⟨root, some items⟩) :
    ((∃ output, expand settings module = .ok output) ↔
      (∃ specifications, analyze settings (.ofItems root items) = .ok specifications) ∧
        ∀ position place found,
          (binder settings (.ofItems root items)).Comes start items position place found →
          (binder settings (.ofItems root items)).Marks found → place.inTest = true) ∧
      ∀ position place found,
        (binder settings (.ofItems root items)).Comes start items position place found →
        (binder settings (.ofItems root items)).Marks found →
        (place.inTest = false → ∃ problems, expand settings module = .error problems ∧
          .noSpecification (place.key root) ∈ problems) ∧
        ((∃ test ∈ (Catalog.ofItems root items).tests, Direct items position test.module test.function) ↔
          place.inTest = true ∧ ∃ path function, Direct items position path function) := by
  have reports : ∀ position place found,
      (binder settings (.ofItems root items)).Comes start items position place found →
      (binder settings (.ofItems root items)).Marks found → place.inTest = false →
      ∃ problems, expand settings module = .error problems ∧
        Problem.noSpecification (place.key root) ∈ problems := by
    intro position place found comes marks outside
    exact expand_reports inline ((mem_bindSites inline).mpr ⟨position, place, found, comes, ⟨marks, outside⟩, rfl⟩)
  refine ⟨⟨?_, ?_⟩, ?_⟩
  · rintro ⟨output, succeeded⟩
    obtain ⟨specifications, bound, analyzed, _, _⟩ := (expand_eq_ok_iff inline).mp succeeded
    refine ⟨⟨specifications, analyzed⟩, ?_⟩
    intro position place found comes marks
    cases inTest : place.inTest with
    | true => rfl
    | false =>
        obtain ⟨problems, failed, _⟩ := reports position place found comes marks inTest
        rw [succeeded] at failed
        cases failed
  · rintro ⟨⟨specifications, analyzed⟩, placed⟩
    have same : keys settings (.ofItems root items) = specifications.map Specification.key := by
      rw [keys, analyzed]
    have silent : (bindSites settings (specifications.map Specification.key) module).2 = [] := by
      rw [← same, List.eq_nil_iff_forall_not_mem]
      intro problem reported
      obtain ⟨position, place, found, comes, stray, _⟩ := (mem_bindSites inline).mp reported
      have inTest := placed position place found comes stray.1
      rw [stray.2] at inTest
      cases inTest
    exact ⟨_, (expand_eq_ok_iff inline).mpr ⟨specifications, _, analyzed, Prod.ext rfl silent, rfl⟩⟩
  · intro position place found comes marks
    refine ⟨reports position place found comes marks, ?_⟩
    rw [direct_test_iff]
    constructor
    · rintro ⟨path, function, direct, tested⟩
      refine ⟨?_, path, function, direct⟩
      rw [Binder.place_of_direct direct comes]
      exact tested
    · rintro ⟨inTest, path, function, direct⟩
      refine ⟨path, function, direct, ?_⟩
      rw [Binder.place_of_direct direct comes] at inTest
      exact inTest

/-- A helper that holds a function with the attribute of a test, which no catalog collects. -/
def nestedItems : List Tree :=
  [Tree.plainFunction "helper" [Tree.testFunction "nested" [Tree.creation "Ghost" ["I"]]]]

theorem nested_comes :
    ∃ place, (binder {} (.ofItems "samples" nestedItems)).Comes start nestedItems [0, 3, 1, 3, 1, 0] place
      (Tree.creationCall "Ghost" ["I"]) := by
  refine ⟨⟨[], some (Name.key "samples" [] "nested", true)⟩, 0, _, _, rfl, rfl, ?_⟩
  refine (Binder.visits_child_iff (by decide) (by decide)).mpr ⟨_, rfl, ?_⟩
  refine (Binder.visits_child_iff (by decide) (by decide)).mpr ⟨_, rfl, ?_⟩
  refine (Binder.visits_child_iff (by decide) (by decide)).mpr ⟨_, rfl, ?_⟩
  refine (Binder.visits_child_iff (by decide) (by decide)).mpr ⟨_, rfl, ?_⟩
  refine (Binder.visits_child_iff (by decide) (by decide)).mpr ⟨_, rfl, ?_⟩
  exact .here _ _

theorem nested_marks :
    (binder {} (.ofItems "samples" nestedItems)).Marks (Tree.creationCall "Ghost" ["I"]) :=
  ⟨_, rfl, by decide⟩

theorem expand_strays_nested :
    ∃ place, (binder {} (.ofItems "samples" nestedItems)).Comes start nestedItems [0, 3, 1, 3, 1, 0] place
        (Tree.creationCall "Ghost" ["I"]) ∧
      ¬(place.inTest = true ∧ ∃ path function, Direct nestedItems [0, 3, 1, 3, 1, 0] path function) := by
  have inline : (Tree.inlineModule "samples" nestedItems).asModule? = some ⟨"samples", some nestedItems⟩ := rfl
  obtain ⟨place, comes⟩ := nested_comes
  refine ⟨place, comes, fun direct => ?_⟩
  obtain ⟨test, member, _⟩ :=
    (((expand_strays inline).2 _ place _ comes nested_marks).2).mpr direct
  cases member

/-- A creation site in a nested function with the attribute of a test passes, and no test holds it. -/
theorem nested_test_accepted :
    ∃ output, expand {} (Tree.inlineModule "samples" nestedItems) = .ok output ∧
      ∃ place, (binder {} (.ofItems "samples" nestedItems)).Comes start nestedItems [0, 3, 1, 3, 1, 0] place
          (Tree.creationCall "Ghost" ["I"]) ∧
        (binder {} (.ofItems "samples" nestedItems)).Marks (Tree.creationCall "Ghost" ["I"]) ∧
        ¬∃ test ∈ (Catalog.ofItems "samples" nestedItems).tests,
          Direct nestedItems [0, 3, 1, 3, 1, 0] test.module test.function := by
  have inline : (Tree.inlineModule "samples" nestedItems).asModule? = some ⟨"samples", some nestedItems⟩ := rfl
  obtain ⟨place, comes⟩ := nested_comes
  refine ⟨_, (expand_eq_ok_iff inline).mpr ⟨[], _, rfl, rfl, rfl⟩, place, comes, nested_marks, ?_⟩
  rintro ⟨test, member, _⟩
  cases member

end Expansion

end TestDouble
