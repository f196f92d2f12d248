import TestDouble.Source.Lexer
import TestDouble.Source.Parse
/-!
# Names

A test function is known by the module it stands in and by its own name. Its *key* joins both with
`::` and is what a call site passes at run time; its *generated name* joins them with underscores and
names the generated type. Both forget whether a name was written raw.

Modules are given by their path below the annotated one, which is the empty path.
-/

namespace TestDouble

/-- The path of a module below the annotated one. -/
abbrev ModulePath := List String

namespace Name
open TestDouble.Text

def isRaw (name : String) : Bool := "r#".toList.isPrefixOf name.toList

def unraw (name : String) : String :=
  if isRaw name then String.ofList (name.toList.drop 2) else name

/-- Whether a text is an identifier, raw or not; keywords are. -/
def isValid (name : String) : Bool :=
  Identifier.isSpelling (unraw name).toList &&
    !(isRaw name && Lexer.neverRaw.contains (unraw name))

/-- Whether a name can stand for a declaration: it is no keyword unless raw. -/
def isDeclarable (name : String) : Bool :=
  isValid name && !Parse.keywords.contains name

def isPathName (name : String) : Bool :=
  isValid name && (!Parse.keywords.contains name || ["self", "super", "crate", "Self"].contains name)

/-- The parts that identify a test: the annotated module, the path below it, the function. -/
def parts (root : String) (module : ModulePath) (function : String) : List String :=
  unraw root :: module.map unraw ++ [unraw function]

def generated (root : String) (module : ModulePath) (function : String) : String :=
  "_".intercalate (parts root module function)

/-- The key under which the type of a test is registered. -/
def key (root : String) (module : ModulePath) (function : String) : String :=
  "::".intercalate (parts root module function)

def unit (generated : String) : String := "__pinky_" ++ generated

def aggregate : String := "__pinky_ghost"

def summon : String := "summon"

/-- Names separated by `::`. -/
def pathTokens (names : List String) : List Tree :=
  (names.map Tree.ident).intersperse (Tree.punct "::")

/-- The path from a module so many levels deep back to the annotated one. -/
def toRoot (depth : Nat) : List String :=
  if depth = 0 then ["self"] else List.replicate depth "super"

end Name

/-- The path of an import, by its segments. -/
structure ImportPath where
  segments : List String
  deriving DecidableEq

namespace ImportPath

def text (path : ImportPath) : String := "::".intercalate path.segments

def toItem (path : ImportPath) : Tree :=
  .node .itemVerbatim (Tree.ident "use" :: Name.pathTokens path.segments ++ [Tree.punct ";"])

/-- Paths are ordered by their segments, one after the other. -/
def precedes (left right : ImportPath) : Bool :=
  decide (left.segments < right.segments)

def insert (path : ImportPath) : List ImportPath → List ImportPath
  | [] => [path]
  | first :: rest =>
    if path = first then first :: rest
    else if path.precedes first then path :: first :: rest
    else first :: insert path rest

theorem mem_insert (path added : ImportPath) (paths : List ImportPath) :
    path ∈ added.insert paths ↔ path = added ∨ path ∈ paths := by
  induction paths with
  | nil => simp [insert]
  | cons first rest ih =>
    unfold insert
    by_cases same : added = first
    · subst same
      simp
    · rw [if_neg same]
      by_cases before : added.precedes first = true
      · rw [if_pos before]
        exact List.mem_cons
      · rw [if_neg before, List.mem_cons, ih, List.mem_cons]
        exact or_left_comm

/-- The ascending list of the paths, each once. -/
def sorted (paths : List ImportPath) : List ImportPath :=
  paths.foldl (fun found path => insert path found) []

end ImportPath

end TestDouble
