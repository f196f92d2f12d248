import TestDouble.Source.Parse
/-!
# Paths, attributes, invocations and generics

The grammar is written with open recursion: every rule takes the record of those rules that can contain
one another. `TestDouble.Source.Grammar` ties the knot.
-/

namespace TestDouble

/-- How tightly an operator binds, from the loosest. -/
inductive Precedence where
  | any
  | assign
  | range
  | or
  | and
  | compare
  | bitOr
  | bitXor
  | bitAnd
  | shift
  | sum
  | product
  | cast
  deriving DecidableEq

namespace Precedence

def rank : Precedence → Nat
  | any => 0
  | assign => 1
  | range => 2
  | or => 3
  | and => 4
  | compare => 5
  | bitOr => 6
  | bitXor => 7
  | bitAnd => 8
  | shift => 9
  | sum => 10
  | product => 11
  | cast => 12

end Precedence

/-- The rules that can contain one another. -/
structure Grammar where
  /-- A path; in an expression the arguments of a segment need a `::` before them. -/
  path : (inExpr : Bool) → Parse Tree
  /-- A type; `plus` says whether bounds joined by `+` may follow a path. -/
  type : (plus : Bool) → Parse Tree
  /-- A pattern without alternatives. -/
  pattern : Parse Tree
  /-- An expression; `structs` says whether a brace behind a path begins a structure. -/
  expr : (structs : Bool) → Parse Tree
  unary : (structs : Bool) → Parse Tree
  /-- Continues an expression with operators that bind at least as tightly as the given one. -/
  climb : (structs : Bool) → Precedence → Tree → Parse Tree
  ifExpr : Parse Tree
  /-- An expression as a statement or arm, where one that ends in a block is not continued. -/
  early : Parse Tree
  /-- Statements in braces; `inner` says whether inner attributes may come first. -/
  block : (inner : Bool) → Parse Tree
  item : Parse Tree
  /-- An import tree; `rooted` says whether its branches may begin at the crate root. -/
  useTree : (rooted : Bool) → Parse Tree
  /-- A parameter of a declaration or binder. -/
  parameter : Parse Tree
  /-- A named field of a structure. -/
  field : Parse Tree

namespace Grammar
open Parse

/-! ### Paths without arguments, attributes, invocations -/

/-- The words that may begin a path although they are keywords. -/
def pathWords : List String := ["super", "self", "Self", "crate"]

def seesPathWord : Parse Bool := do
  return (← peek .name) || (← peekKeywords pathWords)

/-- A path of plain segments, as in attributes and invocations. -/
def plainPath : Parse Tree := do
  let lead ← op? "::"
  let segments ← iterate [] fun found => do
    unless ← seesPathWord do fail
    let segment := Tree.node .segment [← word]
    if ← peekOp "::" then return .again ((← op "::") :: segment :: found)
    return .finish (segment :: found).reverse
  return .node .path (lead :: segments)

/-- What may stand behind the path of an attribute: a group, `=` with a value, or nothing. -/
def attributeRest (g : Grammar) : Parse (List Tree) := do
  if ← peekAny [.group .paren, .group .bracket, .group .brace] then
    return [.node .unread [← anyGroup]]
  else if ← peekOp "=" then
    let eq ← op "="
    let trees ← rest
    let alone := match trees with
      | [.token (.literal _)] => true
      | [.token (.punct "-" _), .token (.literal _)] => seesLiteral trees
      | _ => false
    if alone then
      let literal ← whileHolds (return !(← atEnd)) (takeIf fun _ => true)
      return [eq, .node .literal (.node .attributes [] :: literal)]
    else if (← peekOp "#") && (← seesAt 1 (.group .bracket)) then fail
    else return [eq, ← g.expr true]
  else return []

def metaItem (g : Grammar) : Parse (List Tree) := do
  let path ←
    if ← peekKeyword "unsafe" then
      pure (Tree.node .path [.absent, .node .segment [← keyword "unsafe"]])
    else plainPath
  return path :: (← attributeRest g)

def outerAttribute (g : Grammar) : Parse Tree := do
  return .node .attr [← op "#", .absent, ← within .bracket (metaItem g)]

def outerAttributes (g : Grammar) : Parse Tree := do
  return .node .attributes (← whileHolds (peekOp "#") (outerAttribute g))

def innerAttribute (g : Grammar) : Parse Tree := do
  return .node .attr [← op "#", ← op "!", ← within .bracket (metaItem g)]

def innerAttributes (g : Grammar) : Parse Tree := do
  return .node .attributes (← whileHolds (return (← peekOp "#") && (← seesAt 1 (.op "!"))) (innerAttribute g))

/-- The group of an invocation: read as expressions if all of it reads so, else kept unread. -/
def invocationBody (g : Grammar) : Parse Tree := do
  match ← anyGroup with
  | .node (.group d) content =>
    match commaList (g.expr true) content with
    | some (children, []) => return .node .arguments [.group d children]
    | _ => return .node .unread [.group d content]
  | other => return .node .unread [other]

/-- An invocation behind its path: `!` and a group. -/
def invocation (g : Grammar) (path : Tree) : Parse Tree := do
  return .node .invocation [path, ← op "!", .absent, ← invocationBody g]

def inBraces : Tree → Bool
  | .node .invocation [_, _, _, .node _ [.node (.group .brace) _]] => true
  | _ => false

/-! ### Paths with arguments -/

/-- The tokens that were taken since `before`, unread. -/
def takenSince (before : List Tree) : Parse Tree := do
  return .node .unread (before.take (before.length - (← rest).length))

/-- A constant without an operator: a literal, a name, or a block. -/
def constArgument (g : Grammar) : Parse Tree := do
  if ← peek .literal then
    let sign ← op? "-"
    let value ← takeIf fun _ => true
    return .node .literal [.node .attributes [], sign, value]
  else if ← peek .name then
    return .node .pathExpr [.node .attributes [], .node .path [.absent, .node .segment [← name]]]
  else return .node .block [.node .attributes [], .absent, ← g.block true]

/-- The parameters that a bound, function type or closure introduces. -/
def binder (g : Grammar) : Parse Tree := do
  let head := [← keyword "for", ← op "<"]
  let parameters ← separated "," (peekOp ">") g.parameter
  return .node .binder (head ++ parameters ++ [← op ">"])

/-- The result type of a signature or function type, or nothing. -/
def returns (g : Grammar) (plus : Bool) : Parse Tree := do
  if ← peekOp "->" then return .node .returns [← op "->", ← g.type plus] else return .absent

/-- Arguments in parentheses with a result type: `(u8) -> u8`. -/
def callArguments (g : Grammar) : Parse Tree := do
  let lead ← op? "::"
  let inputs ← within .paren (commaList (g.type true))
  return .node .callArguments [lead, inputs, ← returns g false]

/-- A path whose last segment has no arguments yet, with these arguments; any other is unchanged. -/
def withCallArguments (path arguments : Tree) : Tree :=
  match path with
  | .node .path children =>
    match children.getLast? with
    | some (.node .segment (own :: _)) =>
      .node .path (children.dropLast ++ [.node .segment [own, arguments]])
    | _ => path
  | _ => path

/-- Whether the last segment of a path has no arguments, or an empty list of them. -/
def takesCallArguments : Tree → Bool
  | .node .path children =>
    match children.getLast? with
    | some (.node .segment [_]) => true
    | some (.node .segment [_, .node .genericArguments [_, _, _]]) => true
    | _ => false
  | _ => false

def seesCallArguments : Parse Bool := do
  return (← peek (.group .paren)) || ((← peekOp "::") && (← seesAt 2 (.group .paren)))

/-- The word `const`, also in brackets, or nothing. -/
def constness : Parse Tree := do
  if ← peek (.group .bracket) then within .bracket (return [← keyword "const"]) else keyword? "const"

/-- A trait as a bound: its constness, `?`, binder and path. A binder and `?` exclude each other. -/
def traitBound (g : Grammar) : Parse (List Tree) := do
  let lifetimes ← ifSees (.keyword "for") (binder g)
  let const ← constness
  let question ← op? "?"
  unless lifetimes.isAbsent || question.isAbsent do fail
  let path ← g.path false
  let path ←
    if takesCallArguments path && (← seesCallArguments) then
      pure (withCallArguments path (← callArguments g))
    else pure path
  return [const, question, lifetimes, path]

/--
A single bound; `capture` says whether it may be a list of captured names, `const` whether the trait may
be bound as a constant one, which is kept unread.
-/
def bound (g : Grammar) (capture const : Bool) : Parse Tree := do
  if ← peek .lifetime then lifetime
  else if ← peekKeyword "use" then
    unless capture do fail
    let head := [← keyword "use", ← op "<"]
    let names ← separated "," (peekOp ">") (do
      if ← peek .lifetime then lifetime else if ← peekKeyword "Self" then word else name)
    return .node .preciseCapture (head ++ names ++ [← op ">"])
  else
    let before ← rest
    let inParens ← peek (.group .paren)
    let parts ← if inParens then pure (← within .paren (traitBound g)).children else traitBound g
    match parts with
    | own :: parts =>
      if own.isAbsent then return .node .traitBound (if inParens then [.group .paren parts] else parts)
      unless const do fail
      return .node .verbatimBound [← takenSince before]
    | [] => fail

/-- A generic argument: a lifetime, a type, a constant, an associated item or a constraint. -/
def genericArgument (g : Grammar) : Parse Tree := do
  if (← peek .lifetime) && !(← seesAt 1 (.op "+")) then lifetime
  else if (← peek .literal) || (← peek (.group .brace)) then constArgument g
  else
    let type ← g.type true
    match type with
    | .node .typePath [.node .path [.node .absent [], .node .segment own]] =>
      let plain := match own with
        | [_] => true
        | [_, .node .genericArguments _] => true
        | _ => false
      if plain && (← peekOp "=") then
        let eq ← op "="
        if (← peek .literal) || (← peek (.group .brace)) then
          return .node .associated (own ++ [eq, ← constArgument g])
        return .node .associated (own ++ [eq, ← g.type true])
      else if plain && (← peekOp ":") then
        let colon ← op ":"
        let bounds ← chained "+" (return (← peekOp ",") || (← peekOp ">")) (bound g false true)
        return .node .constraint (own ++ colon :: bounds)
      else return type
    | _ => return type

/-- Generic arguments in angle brackets, with or without a leading `::`. -/
def genericArguments (g : Grammar) : Parse Tree := do
  let head := [← op? "::", ← op "<"]
  let arguments ← separated "," (peekOp ">") (genericArgument g)
  return .node .genericArguments (head ++ arguments ++ [← op ">"])

/-- One segment of a path; in an expression its arguments need a `::` before them. -/
def segment (g : Grammar) (inExpr : Bool) : Parse Tree := do
  if ← peekKeywords ["super", "self", "crate", "try"] then return .node .segment [← word]
  let own ← if ← peekKeyword "Self" then word else name
  let angle := !inExpr && (← peekOp "<") && !(← peekOp "<=") && !(← peekOp "<<=")
  if angle || ((← peekOp "::") && (← seesAt 2 (.op "<"))) then
    return .node .segment [own, ← genericArguments g]
  return .node .segment [own]

/-- The further segments of a path, each behind its `::`. -/
def moreSegments (g : Grammar) (inExpr : Bool) : Parse (List Tree) :=
  iterate [] fun found => do
    if (← peekOp "::") && !(← seesAt 2 (.group .paren)) then
      let separator ← op "::"
      return .again ((← segment g inExpr) :: separator :: found)
    return .finish found.reverse

def pathRule (g : Grammar) (inExpr : Bool) : Parse Tree := do
  let lead ← op? "::"
  let first ← segment g inExpr
  return .node .path (lead :: first :: (← moreSegments g inExpr))

/-- A path, or one that begins with a type in angle brackets: `<T as Trait>::Name`. -/
def qualifiedPath (g : Grammar) (inExpr : Bool) : Parse Tree := do
  if ← peekOp "<" then
    let opening ← op "<"
    let type ← g.type true
    let outer? ← if ← peekKeyword "as" then pure (some (← keyword "as", ← g.path false)) else pure none
    let close ← op ">"
    let colons ← op "::"
    let first ← segment g inExpr
    let more ← iterate [] fun found => do
      if ← peekOp "::" then
        let separator ← op "::"
        return .again ((← segment g inExpr) :: separator :: found)
      return .finish found.reverse
    match outer? with
    | some (asWord, .node .path outer) =>
      return .node .qualified [opening, type, asWord, .node .path (outer ++ close :: colons :: first :: more)]
    | some _ => fail
    | none => return .node .qualified [opening, type, close, .node .path (colons :: first :: more)]
  else g.path inExpr

/-! ### Parameters and bounds of a declaration -/

def lifetimeParameter (attrs : Tree) : Parse Tree := do
  let token ← lifetime
  if ← peekOp ":" then
    let colon ← op ":"
    let bounds ← chained "+" (return (← peekOp ",") || (← peekOp ">") || (← peekOp "=")) lifetime
      return .node .lifetimeParameter [attrs, token, .node .bounds (colon :: bounds)]
  return .node .lifetimeParameter [attrs, token]

/-- What follows `=`, with the sign, or nothing. -/
def defaultValue (value : Parse Tree) : Parse (List Tree) := do
  if ← peekOp "=" then return [← op "=", ← value] else return []

def typeParameter (g : Grammar) (attrs : Tree) : Parse Tree := do
  let own ← name
  let bounds ←
    if ← peekOp ":" then
      let colon ← op ":"
      let found ← chained "+" (return (← peekOp ",") || (← peekOp ">") || (← peekOp "=")) (bound g false true)
      pure (Tree.node .bounds (colon :: found))
    else pure .absent
  return .node .typeParameter (attrs :: own :: bounds :: (← defaultValue (g.type true)))

def constParameter (g : Grammar) (attrs : Tree) : Parse Tree := do
  let head := [attrs, ← keyword "const", ← name, ← op ":", ← g.type true]
  return .node .constParameter (head ++ (← defaultValue (constArgument g)))

def parameterWith (g : Grammar) (attrs : Tree) : Parse Tree := do
  if ← peek .lifetime then lifetimeParameter attrs
  else if ← peekKeyword "const" then constParameter g attrs
  else typeParameter g attrs

def parameterRule (g : Grammar) : Parse Tree := do
  parameterWith g (← outerAttributes g)

/-- The parameters of a declaration in angle brackets, or nothing. A type parameter may lack a name. -/
def generics (g : Grammar) : Parse Tree := do
  unless ← peekOp "<" do return .absent
  let opening ← op "<"
  let parameters ← separated "," (peekOp ">") (do
    let attrs ← outerAttributes g
    if ← peekKeyword "_" then return .node .typeParameter [attrs, ← word, .absent]
    parameterWith g attrs)
  return .node .generics (opening :: parameters ++ [← op ">"])

/-- Whether `<` begins the parameters of a declaration and not a qualified path, `skip` trees ahead. -/
def choosesGenerics (skip : Nat) : Parse Bool := do
  let second := skip + 1
  let third := skip + 2
  unless ← seesAt skip (.op "<") do return false
  if (← seesAt second (.op ">")) || (← seesAt second (.op "#")) || (← seesAt second (.keyword "const")) then
    return true
  unless (← seesAt second .lifetime) || (← seesAt second .name) do return false
  return (← seesAt third (.op ">")) || (← seesAt third (.op ",")) || (← seesAt third (.op "=")) ||
    ((← seesAt third (.op ":")) && !(← seesAt third (.op "::")))

def predicateEnds : Parse Bool := do
  return (← atEnd) || (← peekAny [.group .brace, .op ",", .op ";", .op "="]) ||
    ((← peekOp ":") && !(← peekOp "::"))

def wherePredicate (g : Grammar) : Parse Tree := do
  if (← peek .lifetime) && (← seesAt 1 (.op ":")) then
    let head := [← lifetime, ← op ":"]
    return .node .wherePredicate (head ++ (← chained "+" predicateEnds lifetime))
  let head := [← ifSees (.keyword "for") (binder g), ← g.type true, ← op ":"]
  return .node .wherePredicate (head ++ (← chained "+" predicateEnds (bound g false true)))

/-- The conditions of a declaration, or nothing. They have no parameters of their own. -/
def whereClause (g : Grammar) : Parse Tree := do
  unless ← peekKeyword "where" do return .absent
  let head ← keyword "where"
  if ← choosesGenerics 0 then fail
  return .node .whereClause (head :: (← chained "," predicateEnds (wherePredicate g)))

/-- The bounds behind a colon, up to where `stop` holds, or nothing. -/
def boundsUntil (g : Grammar) (stop : Parse Bool) : Parse Tree := do
  unless ← peekOp ":" do return .absent
  let colon ← op ":"
  return .node .bounds (colon :: (← separated "+" stop (bound g false true)))

/-- Bounds joined by `+`, as in trait objects, one of them a trait; without `plus` there is exactly one. -/
def objectBounds (g : Grammar) (plus capture const : Bool) : Parse (List Tree) := do
  let bounds ← iterate [] fun found => do
    let one ← bound g capture const
    unless plus && (← peekOp "+") do return .finish (one :: found).reverse
    let separator ← op "+"
    let continues := [.word, .op "::", .op "?", .lifetime, .group .paren] ++
      if const then [Sight.group .bracket] else []
    if ← peekAny continues then return .again (separator :: one :: found)
    return .finish (separator :: one :: found).reverse
  require (bounds.any fun b => b.kind? == some .traitBound || b.kind? == some .verbatimBound)
  return bounds

end Grammar

end TestDouble
