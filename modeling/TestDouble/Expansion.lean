import TestDouble.Generated.Dispatcher
import TestDouble.Site.Bind
/-!
# Expansion

The whole work on an annotated module: the analysis of all tests, the binding of creation sites, and the
generated units behind the items. If anything is wrong nothing is generated, and every problem is
reported, in ascending order of the messages.
-/

namespace TestDouble

structure Analysis where
  test : Test
  sites : Sites
  outcome : Except (List Problem) (Option Specification)

namespace Analysis

def ofTest (settings : Settings) (catalog : Catalog) (test : Test) : Analysis :=
  let sites := Sites.ofBody settings test.function.body
  ⟨test, sites, Specification.ofTest catalog test sites⟩

/-- The analyses of all tests, in the order of the source. -/
def all (settings : Settings) (catalog : Catalog) : List Analysis :=
  catalog.tests.map (ofTest settings catalog)

def specification? (analysis : Analysis) : Option Specification :=
  match analysis.outcome with
  | .ok found => found
  | .error _ => none

def problems (analysis : Analysis) : List Problem :=
  match analysis.outcome with
  | .ok _ => []
  | .error problems => problems

end Analysis

/--
The specifications whose generated name was last used by one with another key, given the names used so
far, the newest first.
-/
def duplicateNames (used : List (String × String)) : List Specification → List Problem
  | [] => []
  | s :: rest =>
    let clash := match used.lookup s.generatedName with
      | some key => key != s.key
      | none => false
    (if clash then [.duplicateName s.generatedName] else []) ++
      duplicateNames ((s.generatedName, s.key) :: used) rest

/-- The specifications of a module, or everything that is wrong with its tests. -/
def analyze (settings : Settings) (catalog : Catalog) : Except (List Problem) (List Specification) :=
  let analyses := Analysis.all settings catalog
  let specifications := analyses.filterMap Analysis.specification?
  let problems := analyses.flatMap Analysis.problems ++ duplicateNames [] specifications
  if problems.isEmpty then .ok specifications else .error problems

/-- Puts the import of the dispatcher in front of the items of a module, and the units behind them. -/
def emit (settings : Settings) (specifications : List Specification) (module : Tree) : Tree :=
  match module with
  | .node .itemMod [attributes, visibility, unsafety, word, name, .node (.group .brace) (inner :: items)] =>
    let dispatcher := Dispatcher.ofSpecifications settings.dispatcher specifications
    .node .itemMod [attributes, visibility, unsafety, word, name,
      .group .brace (inner :: dispatcher.importItem :: items ++ specifications.map Specification.unit ++
        [dispatcher.unit])]
  | _ => module

/-- Problems in ascending order of their messages, those of one message in their own order. -/
def inMessageOrder (problems : List Problem) : List Problem :=
  problems.mergeSort fun left right => decide (left.message ≤ right.message)

theorem inMessageOrder_perm (problems : List Problem) : (inMessageOrder problems).Perm problems :=
  List.mergeSort_perm problems _

/-- The expansion of an annotated module. -/
def expand (settings : Settings) (module : Tree) : Except (List Problem) Tree :=
  match Catalog.ofModule module with
  | .error problem => .error [problem]
  | .ok catalog =>
    match analyze settings catalog with
    | .error problems =>
      .error (inMessageOrder (problems ++ (bindSites settings [] module).2))
    | .ok specifications =>
      match bindSites settings (specifications.map Specification.key) module with
      | (bound, []) => .ok (emit settings specifications bound)
      | (_, problems) => .error (inMessageOrder problems)

end TestDouble
