import TestDouble.Source.Grammar.Path
/-!
# Types
-/

namespace TestDouble.Grammar
open Parse

/-- Attaches call arguments such as `(u8) -> u8` to a path, as often as they follow. -/
def withCalls (g : Grammar) (path : Tree) : Parse Tree :=
  iterate path fun path => do
    unless takesCallArguments path && (← seesCallArguments) do return .finish path
    let arguments ← callArguments g
    let path := withCallArguments path arguments
    let continues := match arguments with
      | .node .callArguments [_, _, .node .absent []] => true
      | .node .callArguments [_, _, .node .returns [_, .node .typeParen _]] => true
      | _ => false
    match path with
    | .node .path children =>
      if continues then return .again (.node .path (children ++ (← moreSegments g false)))
      return .again path
    | _ => return .finish path

def typePath (g : Grammar) : Parse Tree := do
  match ← qualifiedPath g false with
  | .node .qualified children =>
    match children.getLast? with
    | some path => return .node .typePath [.node .qualified (children.dropLast ++ [← withCalls g path])]
    | none => fail
  | path => return .node .typePath [← withCalls g path]

/-- Whether every segment of a path is a plain name, so that `!` behind it invokes something. -/
def isPlain : Tree → Bool
  | .node .path children => children.all fun
    | .node .segment own => own.length = 1
    | _ => true
  | _ => false

/-- Bounds behind a first one, each after its `+`. -/
def moreBounds (g : Grammar) : Parse (List Tree) :=
  iterate [] fun found => do
    unless ← peekOp "+" do return .finish found.reverse
    let separator ← op "+"
    return .again ((← bound g false false) :: separator :: found)

def parenType (g : Grammar) (plus : Bool) : Parse Tree := do
  let trees ← rest
  let content := (trees.head?.map Tree.children).getD []
  if content.isEmpty then return .node .typeTuple [← within .paren (pure [])]
  if sees .lifetime content then
    return .node .typeParen [← within .paren (do
      return [.node .typeObject (Tree.absent :: (← objectBounds g true false false))])]
  if sees (.op "?") content then return .node .typeObject (.absent :: (← bound g false false) :: (← moreBounds g))
  let group ← within .paren (commaList (g.type true))
  match group with
  | .node (.group .paren) [type] =>
    if plus && (← peekOp "+") then
      match type with
      | .node .typePath [.node .path path] =>
        let first := Tree.node .traitBound [.group .paren [.absent, .absent, .node .path path]]
        return .node .typeObject (.absent :: first :: (← moreBounds g))
      | .node .typeObject [.node .absent [], .node .traitBound own] =>
        let inParens := match own with
          | [.node (.group .paren) inner] => inner
          | _ => own
        let first := Tree.node .traitBound [.group .paren inParens]
        return .node .typeObject (.absent :: first :: (← moreBounds g))
      | _ => return .node .typeParen [group]
    else return .node .typeParen [group]
  | _ => return .node .typeTuple [group]

/-- One parameter of a function type behind its attributes. A first one `mut self` is kept unread. -/
def functionTypeInput (g : Grammar) (attrs : Tree) (first : Bool) : Parse Tree := do
  let before ← rest
  let mutable := first && (← peekKeyword "mut") && (← seesAt 1 (.keyword "self"))
  if mutable then
    let _ ← word
    let _ ← word
    if (← peekOp ":") && !(← peekOp "::") then
      let _ ← op ":"
      let _ ← g.type true
    return .node .input [attrs, .node .typeVerbatim [← takenSince before]]
  let named := (← peek .name) || (← peekKeyword "_") || (first && (← peekKeyword "self"))
  if named && (← seesAt 1 (.op ":")) && !(← seesAt 1 (.op "::")) then
    return .node .input [attrs, ← word, ← op ":", ← g.type true]
  return .node .input [attrs, ← g.type true]

/-- `extern` with an optional name, or nothing. -/
def abi : Parse Tree := do
  unless ← peekKeyword "extern" do return .absent
  let head ← keyword "extern"
  let named ← maybe (takeIf fun
    | .token (.literal text) => text.startsWith "\"" || text.startsWith "r"
    | _ => false)
  return .node .sequence [head, named.getD .absent]

def functionType (g : Grammar) (binder : Tree) : Parse Tree := do
  let head := [binder, ← keyword? "unsafe", ← abi, ← keyword "fn"]
  let inputs ← within .paren (iterate [] fun found => do
    if ← atEnd then return .finish found.reverse
    let attrs ← outerAttributes g
    let variadic := (← peekOp "...") ||
      (((← peek .name) || (← peekKeyword "_")) && (← seesAt 1 (.op ":")) && (← seesAt 2 (.op "...")))
    if variadic then
      let named ← if ← peekOp "..." then pure [] else pure [← word, ← op ":"]
      let dots ← op "..."
      return .finish (found.reverse ++ [.node .variadic (attrs :: named ++ [dots, ← op? ","])])
    let input ← functionTypeInput g attrs found.isEmpty
    if ← atEnd then return .finish (input :: found).reverse
    return .again ((← op ",") :: input :: found))
  return .node .typeFunction (head ++ [inputs, ← returns g false])

/-- A type; with `plus`, bounds may follow a path. -/
def typeRule (g : Grammar) (plus : Bool) : Parse Tree := do
  let lifetimes ← ifSees (.keyword "for") (binder g)
  unless lifetimes.isAbsent do
    unless (← seesPathWord) || (← peekKeywords ["fn", "unsafe", "extern"]) || (← peekOp "::") do fail
  if ← peek (.group .paren) then parenType g plus
  else if ← peekKeywords ["fn", "unsafe", "extern"] then functionType g lifetimes
  else if (← seesPathWord) || (← peekOp "::") || (← peekOp "<") then
    let type ← typePath g
    match type with
    | .node .typePath [.node .path children] =>
      if (← peekOp "!") && !(← peekOp "!=") && isPlain (.node .path children) then
        return .node .typeInvocation [← invocation g (.node .path children)]
      else if !lifetimes.isAbsent || (plus && (← peekOp "+")) then
        let first := Tree.node .traitBound [.absent, lifetimes, .node .path children]
        unless plus && (← peekOp "+") do return .node .typeObject [.absent, first]
        let separator ← op "+"
        let more ←
          if ← peekAny [.word, .op "::", .op "?", .lifetime, .group .paren] then
            iterate [] fun found => do
              let one ← bound g false false
              unless ← peekOp "+" do return Round.finish (one :: found).reverse
              let separator ← op "+"
              if ← peekAny [.word, .op "::", .op "?", .lifetime, .group .paren] then
                return .again (separator :: one :: found)
              return .finish (separator :: one :: found).reverse
          else pure []
        return .node .typeObject (.absent :: first :: separator :: more)
      else return type
    | _ => return type
  else if ← peekKeyword "dyn" then
    let before ← rest
    let head ← keyword "dyn"
    let star ← op? "*"
    let bounds ← objectBounds g plus false false
    if star.isAbsent then return .node .typeObject (head :: bounds)
    return .node .typeVerbatim [← takenSince before]
  else if ← peek (.group .bracket) then
    let group ← within .bracket (do
      let element ← g.type true
      if ← peekOp ";" then return [element, ← op ";", ← g.expr true]
      return [element])
    return .node (if group.children.length = 1 then .typeSlice else .typeArray) [group]
  else if ← peekOp "*" then
    let star ← op "*"
    let kind ← if ← peekKeyword "const" then keyword "const" else keyword "mut"
    return .node .typePointer [star, kind, ← g.type false]
  else if ← peekOp "&" then
    let amp ← op "&"
    let life ← ifSees .lifetime lifetime
    return .node .typeReference [amp, life, ← keyword? "mut", ← g.type false]
  else if ← peekOp "!" then return .node .typeNever [← op "!"]
  else if ← peekKeyword "impl" then
    let head ← keyword "impl"
    return .node .typeImpl (head :: (← objectBounds g plus true true))
  else if ← peekKeyword "_" then return .node .typeInfer [← word]
  else if ← peek .lifetime then return .node .typeObject (.absent :: (← objectBounds g true false false))
  else fail

end TestDouble.Grammar
