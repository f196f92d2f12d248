import TestDouble.Source.Grammar.Expr
/-!
# Items and members

Every item begins with its attributes, as the children of one node. Forms that are read over but carry
no meaning for the tool become `itemVerbatim`, whose children are the tokens as they stand.
-/

namespace TestDouble.Grammar
open Parse

/-- `pub` with an optional restriction, or nothing. -/
def visibility : Parse Tree := do
  unless ← peekKeyword "pub" do return .absent
  let head ← keyword "pub"
  let scope ← maybe (within .paren (do
    if ← peekKeyword "in" then return [← word, ← plainPath]
    unless ← peekKeywords ["crate", "self", "super"] do fail
    return [.node .path [.absent, .node .segment [← word]]]))
  return .node .visibility [head, scope.getD .absent]

/-- Keeps all that was taken since `before`, with the attributes in front of it, unread. -/
def unreadSince (attrs : Tree) (before : List Tree) : Parse Tree := do
  let taken ← takenSince before
  return .node .itemVerbatim [.node .unread (attrs.tokens.map Tree.token ++ taken.children)]

/-! ### Signatures -/

def receiver (g : Grammar) (attrs : Tree) : Parse Tree := do
  if ← peekOp "&" then
    let head := [attrs, ← op "&", ← ifSees .lifetime lifetime, ← keyword? "mut", ← keyword "self"]
    return .node .receiver head
  let head := [attrs, .absent, .absent, ← keyword? "mut", ← keyword "self"]
  if ← peekOp ":" then return .node .receiver (head ++ [← op ":", ← g.type true])
  return .node .receiver head

/-- One parameter of a signature; a receiver is tried first. -/
def input (g : Grammar) (attrs : Tree) : Parse Tree := do
  match ← maybe (receiver g attrs) with
  | some found => return found
  | none =>
    if (← peek .name) && (← seesAt 1 (.op "<")) then
      return .node .namelessInput [attrs, ← g.type true]
    let pattern ← g.pattern
    let colon ← op ":"
    if ← peekOp "..." then return .node .variadic [attrs, pattern, colon, ← op "..."]
    return .node .input [attrs, pattern, colon, ← g.type true]

/-- The parameters: a receiver only in front, dots only at the end. -/
def inputs (g : Grammar) : Parse (List Tree) :=
  iterate [] fun found => do
    if ← atEnd then return .finish found.reverse
    let attrs ← outerAttributes g
    let one ←
      if ← peekOp "..." then pure (Tree.node .variadic [attrs, ← op "..."])
      else input g attrs
    if one.kind? = some .receiver && !found.isEmpty then fail
    if ← atEnd then return .finish (one :: found).reverse
    let comma ← op ","
    if one.kind? = some .variadic then return .finish (comma :: one :: found).reverse
    return .again (comma :: one :: found)

def seesSignature : Parse Bool :=
  wouldSucceed (do
    let _ ← keyword? "const"
    let _ ← keyword? "async"
    let _ ← keyword? "unsafe"
    let _ ← abi
    keyword "fn")

/-- A signature behind the words that may stand in front of it. -/
def signatureBehind (g : Grammar) (words : List Tree) : Parse Tree := do
  let head := [← abi, ← keyword "fn", ← name, ← generics g]
  let group ← within .paren (inputs g)
  return .node .signature (words ++ head ++ [group, ← returns g true, ← whereClause g])

def signature (g : Grammar) : Parse Tree := do
  signatureBehind g [← keyword? "const", ← keyword? "async", ← keyword? "unsafe"]

/-! ### Members -/

def semicolon : Parse Tree := op ";"

/-- A body in braces, or the semicolon in its place. -/
def bodyOrEnd (g : Grammar) : Parse Tree := do
  if ← peek (.group .brace) then g.block true else semicolon

/--
An associated or free constant behind its visibility: its parts, whether it has neither parameters nor
conditions, and whether it has a value.
-/
def constant (g : Grammar) : Parse (List Tree × Bool × Bool) := do
  let head ← keyword "const"
  let own ← if ← peekKeyword "_" then word else name
  let parameters ← generics g
  let front := [head, own, parameters, ← op ":", ← g.type true]
  let value ← defaultValue (g.expr true)
  let conditions ← whereClause g
  let plain := parameters.isAbsent && conditions.isAbsent
  return (front ++ value ++ [conditions, ← semicolon], plain, !value.isEmpty)

/--
An associated or free type, with its conditions on the given sides of the sign: its parts, whether it has
no bounds, and whether it has a value.
-/
def typeDeclaration (g : Grammar) (before after : Bool) : Parse (List Tree × Bool × Bool) := do
  let head := [← keyword "type", ← name, ← generics g]
  let bounds ← boundsUntil g (return (← peekKeyword "where") || (← peekOp "=") || (← peekOp ";"))
  let early ← if before then whereClause g else pure .absent
  let value ← defaultValue (g.type true)
  let late ← if after && early.isAbsent then whereClause g else pure .absent
  return (head ++ [bounds, early] ++ value ++ [late, ← semicolon], bounds.isAbsent, !value.isEmpty)

/-- Whether an invocation can stand here as an item or member. -/
def seesInvocation : Parse Bool :=
  return (← peek .name) || (← peekKeywords ["self", "super", "crate"]) || (← peekOp "::")

/-- An invocation as an item or member: no semicolon behind braces. -/
def invocationItem (g : Grammar) (named : Bool) : Parse (List Tree) := do
  let path ← plainPath
  let bang ← op "!"
  let own ← if named && ((← peek .name) || (← peekKeyword "try")) then word else pure .absent
  let body := Tree.node .invocation [path, bang, own, ← invocationBody g]
  return [body, ← if inBraces body then pure .absent else semicolon]

def traitMember (g : Grammar) : Parse Tree := do
  let attrs ← outerAttributes g
  let before ← rest
  let front ← visibility
  let early ← keyword? "default"
  let hidden := !front.isAbsent || !early.isAbsent
  let found ←
    if ← seesSignature then pure (Tree.node .traitFn [attrs, ← signature g, ← bodyOrEnd g])
    else if ← peekKeyword "const" then
      let (children, plain, _) ← constant g
      pure (Tree.node (if plain then .traitConst else .itemVerbatim) (attrs :: children))
    else if ← peekKeyword "type" then
      let (children, _) ← typeDeclaration g false true
      pure (Tree.node .traitType (attrs :: children))
    else if !hidden && (← seesInvocation) then
      pure (Tree.node .traitInvocation (attrs :: (← invocationItem g false)))
    else fail
  if hidden || found.kind? = some .itemVerbatim then unreadSince attrs before else return found

def implMember (g : Grammar) : Parse Tree := do
  let attrs ← outerAttributes g
  let before ← rest
  let front ← visibility
  let early ← if ← seesAt 1 (.op "!") then pure .absent else keyword? "default"
  let head := [attrs, front, early]
  let found ←
    if ← seesSignature then
      let own ← signature g
      let body ← bodyOrEnd g
      pure (Tree.node (if body.isPunct ";" then .itemVerbatim else .implFn) (head ++ [own, body]))
    else if ← peekKeyword "const" then
      let (children, plain, valued) ← constant g
      pure (Tree.node (if plain && valued then .implConst else .itemVerbatim) (head ++ children))
    else if ← peekKeyword "type" then
      let (children, plain, valued) ← typeDeclaration g false true
      pure (Tree.node (if plain && valued then .implType else .itemVerbatim) (head ++ children))
    else if front.isAbsent && early.isAbsent && (← seesInvocation) then
      pure (Tree.node .implInvocation (attrs :: (← invocationItem g false)))
    else fail
  if found.kind? = some .itemVerbatim then unreadSince attrs before else return found

/-- `unsafe` or `safe` in front of a foreign member. -/
def foreignSafety : Parse Tree := do
  let unsafety ← keyword? "unsafe"
  if unsafety.isAbsent then keyword? "safe" else return unsafety

def seesForeignSignature : Parse Bool :=
  wouldSucceed (do
    let _ ← keyword? "const"
    let _ ← keyword? "async"
    let _ ← foreignSafety
    let _ ← abi
    keyword "fn")

/-- A member of a foreign block. One that could not be declared in every such block is kept unread. -/
def foreignMember (g : Grammar) : Parse Tree := do
  let attrs ← outerAttributes g
  let before ← rest
  let front ← visibility
  let found ←
    if ← seesForeignSignature then
      let words := [← keyword? "const", ← keyword? "async", ← foreignSafety]
      let own ← signatureBehind g words
      let body ← bodyOrEnd g
      let plain := body.isPunct ";" && !words.any (isKeyword "safe")
      pure (Tree.node (if plain then .foreignMember else .itemVerbatim) [attrs, front, own, body])
    else if (← peekKeyword "static") ||
        ((← peekKeywords ["unsafe", "safe"]) && (← seesAt 1 (.keyword "static"))) then
      let safety ← foreignSafety
      let head := [attrs, front, ← keyword "static", ← keyword? "mut", ← name, ← op ":", ← g.type true]
      let value ← defaultValue (g.expr true)
      let plain := safety.isAbsent && value.isEmpty
      pure (Tree.node (if plain then .foreignMember else .itemVerbatim) (head ++ value ++ [← semicolon]))
    else if ← peekKeyword "type" then
      let (children, plain, valued) ← typeDeclaration g true true
      pure (Tree.node (if plain && !valued then .foreignMember else .itemVerbatim) (attrs :: front :: children))
    else if front.isAbsent && (← seesInvocation) then
      pure (Tree.node .foreignMember (attrs :: (← invocationItem g false)))
    else fail
  if found.kind? = some .itemVerbatim then unreadSince attrs before else return found

/-- Members in braces, behind the inner attributes. -/
def members (g : Grammar) (one : Parse Tree) : Parse Tree :=
  within .brace (do
    let inner ← innerAttributes g
    return inner :: (← untilEnd one))

/-! ### Declarations of types -/

/-- A named field; one named `_` may hold fields of its own, which are kept unread. -/
def fieldRule (g : Grammar) : Parse Tree := do
  let head := [← outerAttributes g, ← visibility]
  let nameless ← peekKeyword "_"
  let front := head ++ [← if nameless then word else name, ← op ":"]
  let before ← rest
  let nested := (← peekKeyword "struct") || ((← peekKeyword "union") && (← seesAt 1 (.group .brace)))
  if nameless && nested then
    let _ ← word
    let _ ← within .brace (commaList g.field)
    return .node .fieldDecl (front ++ [.node .typeVerbatim [← takenSince before]])
  return .node .fieldDecl (front ++ [← g.type true])

def unnamedField (g : Grammar) : Parse Tree := do
  return .node .fieldDecl [← outerAttributes g, ← visibility, ← g.type true]

def structBody (g : Grammar) : Parse (List Tree) := do
  let early ← whereClause g
  if early.isAbsent && (← peek (.group .paren)) then
    let fields ← within .paren (commaList (unnamedField g))
    return [early, fields, ← whereClause g, ← semicolon]
  else if ← peek (.group .brace) then return [early, ← within .brace (commaList g.field)]
  else return [early, ← semicolon]

def variant (g : Grammar) : Parse Tree := do
  let attrs ← outerAttributes g
  let front ← visibility
  let own ← name
  let fields ←
    if ← peek (.group .brace) then within .brace (commaList g.field)
    else if ← peek (.group .paren) then within .paren (commaList (unnamedField g))
    else pure .absent
  return .node .variant ([attrs, front, own, fields] ++ (← defaultValue (g.expr true)))

/-! ### Imports -/

/-- The words that may begin an import although they are keywords. -/
def importWords : List String := ["self", "super", "crate", "try"]

/--
An import tree. With `rooted`, branches in braces may begin at the crate root; behind such a beginning, as
behind any other part of a path, none may.
-/
def useTreeRule (g : Grammar) (rooted : Bool) : Parse Tree := do
  if (← peek .name) || (← peekKeywords importWords) then
    let own ← word
    if ← peekOp "::" then return .node .usePath [own, ← op "::", ← g.useTree false]
    else if ← peekKeyword "as" then
      let asWord ← word
      return .node .useRename [own, asWord, ← if ← peekKeyword "_" then word else name]
    else return .node .useName [own]
  else if ← peekOp "*" then return .node .useGlob [← op "*"]
  else return .node .useGroup [← within .brace (commaList (do
    if rooted && (← peekOp "::") then return .node .sequence [← op "::", ← g.useTree false]
    g.useTree rooted))]

/-! ### Items -/

def itemFn (g : Grammar) (attrs : Tree) : Parse Tree := do
  return .node .itemFn [attrs, ← visibility, ← signature g, ← g.block true]

def itemMod (g : Grammar) (attrs : Tree) : Parse Tree := do
  let head := [attrs, ← visibility, ← keyword? "unsafe", ← keyword "mod"]
  let own ← if ← peekKeyword "try" then word else name
  let content ← if ← peekOp ";" then semicolon else members g g.item
  return .node .itemMod (head ++ [own, content])

def traitRest (g : Grammar) (head : List Tree) : Parse Tree := do
  let bounds ← boundsUntil g (return (← peekKeyword "where") || (← peek (.group .brace)))
  return .node .itemTrait (head ++ [bounds, ← whereClause g, ← members g (traitMember g)])

def traitHead (g : Grammar) (attrs : Tree) : Parse (List Tree) := do
  return [attrs, ← visibility, ← keyword? "unsafe", ← keyword? "auto", ← keyword "trait", ← name, ← generics g]

def itemTrait (g : Grammar) (attrs : Tree) : Parse Tree := do
  traitRest g (← traitHead g attrs)

/-- A trait, or a name for a list of bounds. -/
def traitOrAlias (g : Grammar) (attrs : Tree) : Parse Tree := do
  let head ← traitHead g attrs
  unless ← peekOp "=" do return ← traitRest g head
  let eq ← op "="
  let ends : Parse Bool := return (← peekKeyword "where") || (← peekOp ";")
  let bounds ← separated "+" ends (bound g false false)
  return .node .itemTraitAlias (head ++ eq :: bounds ++ [← whereClause g, ← semicolon])

def itemImpl (g : Grammar) (attrs : Tree) : Parse Tree := do
  let trees ← rest
  let front ← visibility
  let head := [attrs, ← keyword? "default", ← keyword? "unsafe", ← keyword "impl"]
  let parameters ← if ← choosesGenerics 0 then generics g else pure .absent
  let isConst := (← peekKeyword "const") || ((← peekOp "?") && (← seesAt 1 (.keyword "const")))
  if isConst then
    let _ ← op? "?"
    let _ ← keyword "const"
  let polarity ← if (← peekOp "!") && !(← seesAt 1 (.group .brace)) then op "!" else pure .absent
  let first ← g.type true
  let isPath := match first with
    | .node .typePath [.node .path _] => true
    | _ => false
  let forWord ← keyword? "for"
  unless polarity.isAbsent || !forWord.isAbsent do fail
  let target ← if forWord.isAbsent then pure .absent else g.type true
  let conditions ← whereClause g
  let body ← members g (implMember g)
  if !front.isAbsent || isConst || (!forWord.isAbsent && !isPath) then
    return ← unreadSince attrs trees
  return .node .itemImpl (head ++ [parameters, polarity, first, forWord, target, conditions, body])

def itemStatic (g : Grammar) (attrs : Tree) : Parse Tree := do
  let trees ← rest
  let head := [attrs, ← visibility, ← keyword "static", ← keyword? "mut", ← name]
  let type ← if ← peekOp ":" then pure [← op ":", ← g.type true] else pure []
  let value ← defaultValue (g.expr true)
  let stop ← semicolon
  if type.isEmpty && value.isEmpty then fail
  if type.isEmpty || value.isEmpty then
    return ← unreadSince attrs trees
  return .node .itemStatic (head ++ type ++ value ++ [stop])

def itemConst (g : Grammar) (attrs : Tree) : Parse Tree := do
  let trees ← rest
  let front ← visibility
  let (children, plain, valued) ← constant g
  if plain && valued then return .node .itemConst (attrs :: front :: children)
  unreadSince attrs trees

def itemType (g : Grammar) (attrs : Tree) : Parse Tree := do
  let trees ← rest
  let front ← visibility
  let (children, plain, valued) ← typeDeclaration g true false
  if plain && valued then return .node .itemType (attrs :: front :: children)
  unreadSince attrs trees

mutual

/-- Whether a branch of an import tree begins at the crate root. -/
def isRooted : Tree → Bool
  | .node .sequence _ => true
  | .node _ children => anyRooted children
  | .token _ => false

def anyRooted : List Tree → Bool
  | [] => false
  | tree :: rest => isRooted tree || anyRooted rest

end

theorem anyRooted_eq_any (trees : List Tree) : anyRooted trees = trees.any isRooted := by
  induction trees with
  | nil => rfl
  | cons first rest ih => simp [anyRooted, ih]

def itemUse (g : Grammar) (attrs : Tree) : Parse Tree := do
  let before ← rest
  let front ← visibility
  let useWord ← keyword "use"
  let lead ← op? "::"
  let tree ← g.useTree lead.isAbsent
  let stop ← semicolon
  if isRooted tree then unreadSince attrs before
  else return .node .itemUse [attrs, front, useWord, lead, tree, stop]

def itemForeign (g : Grammar) (attrs : Tree) : Parse Tree := do
  let head := [attrs, ← keyword? "unsafe", ← abi]
  return .node .itemForeign (head ++ [← members g (foreignMember g)])

def itemCrate (attrs : Tree) : Parse Tree := do
  let head := [attrs, ← visibility, ← keyword "extern", ← keyword "crate"]
  let own ← if ← peekKeyword "self" then word else name
  let other ←
    if ← peekKeyword "as" then
      let asWord ← word
      pure [asWord, ← if ← peekKeyword "_" then word else name]
    else pure []
  return .node .itemCrate (head ++ own :: other ++ [← semicolon])

def itemWith (g : Grammar) (attrs : Tree) : Parse Tree := do
  let trees ← rest
  let front := match visibility trees with
    | some (_, after) => trees.length - after.length
    | none => 0
  let ahead := trees.drop front
  let second := ahead.drop 1
  let isPublic := 0 < front
  let keyed (text : String) : Bool := sees (.keyword text) ahead
  let follows (text : String) : Bool := sees (.keyword text) second
  if keyed "fn" || ((seesSignature ahead).map (·.1)).getD false then
    let head := [attrs, ← visibility, ← signature g]
    let body ← bodyOrEnd g
    if body.isPunct ";" then unreadSince attrs trees else return .node .itemFn (head ++ [body])
  else if keyed "extern" then
    if follows "crate" then itemCrate attrs else itemForeign g attrs
  else if keyed "use" then itemUse g attrs
  else if keyed "static" then itemStatic g attrs
  else if keyed "const" then itemConst g attrs
  else if keyed "unsafe" then
    if follows "trait" || follows "auto" then itemTrait g attrs
    else if follows "impl" then itemImpl g attrs
    else if follows "extern" then itemForeign g attrs
    else if follows "mod" then itemMod g attrs
    else fail
  else if keyed "mod" then itemMod g attrs
  else if keyed "type" then itemType g attrs
  else if keyed "struct" then
    let head := [attrs, ← visibility, ← word, ← name, ← generics g]
    return .node .itemStruct (head ++ (← structBody g))
  else if keyed "enum" then
    let head := [attrs, ← visibility, ← word, ← name, ← generics g, ← whereClause g]
    return .node .itemEnum (head ++ [← within .brace (commaList (variant g))])
  else if keyed "union" && sees .name second then
    let head := [attrs, ← visibility, ← word, ← name, ← generics g, ← whereClause g]
    return .node .itemUnion (head ++ [← within .brace (commaList g.field)])
  else if keyed "trait" then traitOrAlias g attrs
  else if keyed "auto" && follows "trait" then itemTrait g attrs
  else if keyed "impl" || (keyed "default" && !sees (.op "!") second) then itemImpl g attrs
  else if keyed "macro" then
    let _ ← visibility
    let _ ← word
    let _ ← name
    let _ ← ifSees (.group .paren) anyGroup
    unless ← peek (.group .brace) do fail
    let _ ← anyGroup
    unreadSince attrs trees
  else if !isPublic && (← seesInvocation) then
    return .node .itemInvocation (attrs :: (← invocationItem g true))
  else fail

def itemRule (g : Grammar) : Parse Tree := do
  itemWith g (← outerAttributes g)

/-! ### Statements -/

/-- Whether an item begins here, as opposed to an expression. -/
def seesItem : Parse Bool := do
  let trees ← rest
  let second := trees.drop 1
  let third := trees.drop 2
  let keyed (text : String) : Bool := sees (.keyword text) trees
  let follows (text : String) : Bool := sees (.keyword text) second
  let afterwards (text : String) : Bool := sees (.keyword text) third
  return keyed "pub" || (keyed "crate" && !sees (.op "::") second) || keyed "extern" || keyed "use" ||
    (keyed "static" && (follows "mut" || (sees .name second && !(follows "async" &&
      (afterwards "move" || sees (.op "|") third))))) ||
    (keyed "const" && !(sees (.group .brace) second || follows "static" ||
      (follows "async" && !(afterwards "unsafe" || afterwards "extern" || afterwards "fn")) ||
      follows "move" || sees (.op "|") second)) ||
    (keyed "unsafe" && !sees (.group .brace) second) ||
    (keyed "async" && (follows "unsafe" || follows "extern" || follows "fn")) ||
    ["fn", "mod", "type", "struct", "enum", "trait", "impl", "macro"].any keyed ||
    (keyed "union" && sees .name second) || (keyed "auto" && follows "trait") ||
    (keyed "default" && (follows "unsafe" || follows "impl"))

/-- Whether an expression ends in a brace, so that no `else` can follow it. -/
def endsInBrace (tree : Tree) : Bool :=
  tree.tokens.getLast? == some (.closing .brace)

def localStmt (g : Grammar) (attrs : Tree) : Parse Tree := do
  let head := [attrs, ← keyword "let", ← g.pattern]
  let type ← if ← peekOp ":" then pure [← op ":", ← g.type true] else pure []
  let value ←
    if ← peekOp "=" then
      let eq ← op "="
      let expr ← g.expr true
      if !endsInBrace expr && (← peekKeyword "else") then
        pure [eq, expr, ← keyword "else", plain .block [.absent, ← g.block false]]
      else pure [eq, expr]
    else pure []
  return .node .localStmt (head ++ type ++ value ++ [← semicolon])

def wholeInvocation : Tree → Option (Tree × Tree)
  | .node .invocationExpr [attrs, body] => some (attrs, body)
  | _ => none

/-- An expression statement; only the last one of a block may lack its semicolon. -/
def exprStmt (g : Grammar) (attrs : Tree) : Parse Tree := do
  let expr := (← g.early).addLeftAttributes attrs.children
  let stop ← op? ";"
  match wholeInvocation expr with
  | some (own, body) =>
    if !stop.isAbsent || inBraces body then return .node .invocationStmt [own, body, stop]
    unless ← atEnd do fail
    return .node .exprStmt [expr, stop]
  | none =>
    unless !stop.isAbsent || standsAlone expr || (← atEnd) do fail
    return .node .exprStmt [expr, stop]

/-- What a plain path with `!` at the start of a statement begins. -/
inductive Invoked where
  | item
  | statement
  | expression

def invokedHere : Parse Invoked := do
  match plainPath (← rest) with
  | some (_, after) =>
    if !sees (.op "!") after then return .expression
    let second := after.drop 1
    let third := after.drop 2
    if sees .name second || sees (.keyword "try") second then return .item
    if sees (.group .brace) second &&
        !((sees (.op ".") third && !sees (.op "..") third) || sees (.op "?") third) then
      return .statement
    return .expression
  | none => return .expression

def statement (g : Grammar) : Parse Tree := do
  if ← peekOp ";" then return .node .exprStmt [.absent, ← semicolon]
  let attrs ← outerAttributes g
  match ← invokedHere with
  | .item => itemWith g attrs
  | .statement =>
    let path ← plainPath
    return .node .invocationStmt [attrs, ← invocation g path, ← op? ";"]
  | .expression =>
    if ← peekKeyword "let" then localStmt g attrs
    else if ← seesItem then itemWith g attrs
    else exprStmt g attrs

def blockRule (g : Grammar) (inner : Bool) : Parse Tree :=
  within .brace (do
    let attrs ← if inner then innerAttributes g else pure noAttributes
    return attrs :: (← untilEnd (statement g)))

end TestDouble.Grammar
