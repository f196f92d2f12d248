import TestDouble.Source.Grammar
import TestDouble.Source.Literal
import TestDouble.Source.View
/-!
# Settings

The annotation may rename the two identifiers that the analysis looks for. Its arguments are a list of
entries `rename = "Name"` and `returns = "name"`; of a repeated entry the last one counts.
-/

namespace TestDouble

/-- The identifiers the analysis looks for. -/
structure Settings where
  /-- What creation sites call, and the name of the generated dispatcher. -/
  dispatcher : String := "Ghost"
  /-- The method that configures a value. -/
  returns : String := "returns"
  deriving DecidableEq

inductive SettingsError where
  /-- An entry with another name, well-formed as an attribute. -/
  | unsupported
  | malformed
  deriving DecidableEq

namespace Settings
open Parse

def identifierIn? (spelling : String) : Option String :=
  match LiteralValue.ofSpelling spelling with
  | .text value "" =>
    match Lexer.readTrees value with
    | some [tree] => if isName tree then tree.ident? else none
    | _ => none
  | _ => none

/-- The value of an entry: a string literal that holds one identifier. -/
def entryValue : Parse String := do
  let _ ← word
  let _ ← op "="
  match ← takeIf fun
    | .token (.literal _) => true
    | _ => false with
  | .token (.literal spelling) =>
    match identifierIn? spelling with
    | some name => return name
    | none => fail
  | _ => fail

def withEntry (g : Grammar) (settings : Settings) : Parse (Except SettingsError Settings) := do
  match ← lookAhead (Grammar.metaItem g) with
  | some (path :: _) =>
    if path.onlyName? = some "rename" then return .ok { settings with dispatcher := ← entryValue }
    else if path.onlyName? = some "returns" then return .ok { settings with returns := ← entryValue }
    else return .error .unsupported
  | _ => fail

/-- Applies entries from the first to the last; the first fault decides. -/
def entries (g : Grammar) : Parse (Except SettingsError Settings) :=
  iterate ({} : Settings) fun settings => do
    if ← atEnd then return .finish (.ok settings)
    match ← withEntry g settings with
    | .ok settings =>
      if ← atEnd then return .finish (.ok settings)
      let _ ← op ","
      return .again settings
    | .error error => return .finish (.error error)

def ofTrees (trees : List Tree) : Except SettingsError Settings :=
  match entries (Grammar.forTrees trees) trees with
  | some (result, _) => result
  | none => .error .malformed

/-- The settings that the arguments of an annotation stand for. -/
def read (arguments : String) : Except SettingsError Settings :=
  match Lexer.readTrees arguments with
  | some trees => ofTrees trees
  | none => .error .malformed

end Settings

end TestDouble
