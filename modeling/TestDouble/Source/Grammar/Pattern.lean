import TestDouble.Source.Grammar.Type
import TestDouble.Source.Literal
/-!
# Patterns
-/

namespace TestDouble.Grammar
open Parse

/-- Whether `|` stands here as the separator of alternatives. -/
def seesAlternative : Parse Bool := do
  return (← peekOp "|") && !(← peekOp "||") && !(← peekOp "|=")

def alternatives (g : Grammar) : Parse Tree := do
  let first ← g.pattern
  unless ← seesAlternative do return first
  let more ← iterate [] fun found => do
    unless ← seesAlternative do return .finish found.reverse
    let separator ← op "|"
    return .again ((← g.pattern) :: separator :: found)
  return .node .pattern (first :: more)

/-- Alternatives, also with a bar in front. -/
def anyPattern (g : Grammar) : Parse Tree := do
  if ← peekOp "|" then
    let bar ← op "|"
    return .node .pattern [bar, ← alternatives g]
  alternatives g

/-- The end of a range, or nothing where the pattern ends. -/
def rangeBound (g : Grammar) : Parse Tree := do
  let trees ← rest
  let ends := trees.isEmpty || sees (.op "|") trees || sees (.op "=") trees ||
    (sees (.op ":") trees && !sees (.op "::") trees) || sees (.op ",") trees || sees (.op ";") trees ||
    sees (.keyword "if") trees
  if ends then return .absent
  if ← peek .literal then
    let sign ← op? "-"
    return .node .literal [.node .attributes [], sign, ← takeIf fun _ => true]
  else if (← seesPathWord) || (← peekOp "::") || (← peekOp "<") then
    return .node .pathExpr [.node .attributes [], ← qualifiedPath g true]
  else if ← peekKeyword "const" then
    return .node .constBlock [.node .attributes [], ← keyword "const", ← g.block true]
  else fail

/-- The dots of a range in a pattern; the old form with three dots is admitted behind a start. -/
def rangeDots (old : Bool) : Parse Tree := do
  if ← peekOp "..=" then op "..="
  else if old && (← peekOp "...") then op "..."
  else if (← peekOp "..") && !(← peekOp "...") then op ".."
  else fail

/-- A pattern that begins with a literal, path or constant and may go on as a range. -/
def rangeFrom (g : Grammar) (start : Tree) : Parse Tree := do
  unless ← peekOp ".." do return .node .pattern [start]
  let dots ← rangeDots true
  let stop ← rangeBound g
  if stop.isAbsent && !dots.isPunct ".." then fail
  return .node .rangePattern [start, dots, stop]

def namePattern (g : Grammar) : Parse Tree := do
  let head := [← keyword? "ref", ← keyword? "mut"]
  let own ← if ← peekKeyword "self" then word else name
  if ← peekOp "@" then return .node .pattern (head ++ [own, ← op "@", ← g.pattern])
  return .node .pattern (head ++ [own])

/-- A member of a structure: a name or a number. -/
def memberName : Parse Tree := do
  if ← peek .name then name
  else takeIf fun
    | .token (.literal text) => (LiteralValue.fieldNumber? text).isSome
    | _ => false

def fieldPattern (g : Grammar) : Parse Tree := do
  let attrs ← outerAttributes g
  if ← peekOp ".." then return .node .patternRest [attrs, ← op ".."]
  let modifiers := [← keyword? "box", ← keyword? "ref", ← keyword? "mut"]
  unless modifiers.all Tree.isAbsent do return .node .pattern (attrs :: modifiers ++ [← name])
  let own ← memberName
  if (← peekOp ":") || !sees .name [own] then
    return .node .fieldPattern [attrs, own, ← op ":", ← anyPattern g]
  return .node .pattern [attrs, own]

/-- Fields in braces; the rest pattern ends them. -/
def fieldPatterns (g : Grammar) : Parse (List Tree) :=
  iterate [] fun found => do
    if ← atEnd then return .finish found.reverse
    let field ← fieldPattern g
    if field.kind? = some .patternRest then return .finish (field :: found).reverse
    if ← atEnd then return .finish (field :: found).reverse
    return .again ((← op ",") :: field :: found)

def pathPattern (g : Grammar) : Parse Tree := do
  let path ← qualifiedPath g true
  if (← peekOp "!") && !(← peekOp "!=") && isPlain path then
    return .node .pattern [.node .invocationExpr [.node .attributes [], ← invocation g path]]
  else if ← peek (.group .brace) then
    return .node .pattern [path, ← within .brace (fieldPatterns g)]
  else if ← peek (.group .paren) then
    return .node .pattern [path, ← within .paren (commaList (anyPattern g))]
  else rangeFrom g (.node .pathExpr [.node .attributes [], path])

/-- A range pattern that lacks a start or an end. -/
def isOpenRange : Tree → Bool
  | .node .rangePattern [start, _, stop] => start.isAbsent || stop.isAbsent
  | _ => false

def patternRule (g : Grammar) : Parse Tree := do
  let compound := [Sight.op "::", .op "!", .group .brace, .group .paren, .op ".."]
  let trees ← rest
  let second := trees.drop 1
  let isPath := (sees .name trees && compound.any fun s => sees s second) ||
    (sees (.keyword "self") trees && sees (.op "::") second) || sees (.op "::") trees ||
    sees (.op "<") trees || ["Self", "super", "crate"].any fun k => sees (.keyword k) trees
  if isPath then pathPattern g
  else if ← peekKeyword "_" then return .node .pattern [← word]
  else if ← peekKeyword "box" then
    let _ ← word
    let _ ← g.pattern
    return .node .verbatimPattern [← takenSince trees]
  else if (← peekOp "-") || (← peek .literal) || (← peekKeyword "const") then
    rangeFrom g (← rangeBound g)
  else if (← peekKeywords ["ref", "mut", "self"]) || (← peek .name) then namePattern g
  else if ← peekOp "&" then
    let amp ← op "&"
    return .node .pattern [amp, ← keyword? "mut", ← g.pattern]
  else if ← peek (.group .paren) then
    return .node .pattern [← within .paren (commaList (anyPattern g))]
  else if ← peek (.group .bracket) then
    let group ← within .bracket (commaList (anyPattern g))
    require (!group.children.any isOpenRange)
    return .node .pattern [group]
  else if (← peekOp "..") && !(← peekOp "...") then
    let dots ← rangeDots false
    let stop ← rangeBound g
    if stop.isAbsent then
      require (dots.isPunct "..")
      return .node .patternRest [dots]
    return .node .rangePattern [.absent, dots, stop]
  else fail

end TestDouble.Grammar
