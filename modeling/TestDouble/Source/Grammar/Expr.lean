import TestDouble.Source.Grammar.Pattern
/-!
# Expressions and statements

Every expression node begins with its attributes. Attributes in front of an operand belong to the
operand with everything that is attached to it (calls, fields, indices); those in front of a statement
belong to the leftmost operand of its operators. A range begins with no operand that attributes could
belong to, so that they stand in front of it only where the whole statement or arm is the range.
-/

namespace TestDouble

namespace Tree

/-- Puts attributes in front of those an expression already has; one that is kept unread takes none. -/
def addAttributes (attrs : List Tree) : Tree → Tree
  | .node .exprVerbatim children => .node .exprVerbatim children
  | .node kind (.node .attributes own :: rest) => .node kind (.node .attributes (attrs ++ own) :: rest)
  | tree => tree

/-- Adds attributes to the leftmost operand of a chain of binary operators, assignments and casts. -/
def addLeftAttributes (attrs : List Tree) : Tree → Tree
  | .node .binary [own, left, op, right] => .node .binary [own, addLeftAttributes attrs left, op, right]
  | .node .assign [own, left, op, right] => .node .assign [own, addLeftAttributes attrs left, op, right]
  | .node .cast [own, operand, op, type] => .node .cast [own, addLeftAttributes attrs operand, op, type]
  | tree => addAttributes attrs tree

end Tree

namespace Grammar
open Parse

def noAttributes : Tree := .node .attributes []

def plain (kind : Kind) (children : List Tree) : Tree := .node kind (noAttributes :: children)

/-! ### Operators -/

/-- The binary operators, a longer one before each that begins it. -/
def binaryOperators : List (String × Precedence) :=
  [("+=", .assign), ("-=", .assign), ("*=", .assign), ("/=", .assign), ("%=", .assign), ("^=", .assign),
    ("&=", .assign), ("|=", .assign), ("<<=", .assign), (">>=", .assign), ("&&", .and), ("||", .or),
    ("<<", .shift), (">>", .shift), ("==", .compare), ("<=", .compare), ("!=", .compare), (">=", .compare),
    ("+", .sum), ("-", .sum), ("*", .product), ("/", .product), ("%", .product), ("^", .bitXor),
    ("&", .bitAnd), ("|", .bitOr), ("<", .compare), (">", .compare)]

def operatorAt (trees : List Tree) : Option (String × Precedence) :=
  binaryOperators.find? fun entry => sees (.op entry.1) trees

/-- How tightly the next operator binds, the loosest if there is none. -/
def nextPrecedence : Parse Precedence := do
  let trees ← rest
  match operatorAt trees with
  | some (_, p) => return p
  | none =>
    if sees (.op "=") trees && !sees (.op "=>") trees then return .assign
    else if sees (.op "..") trees then return .range
    else if sees (.keyword "as") trees then return .cast
    else return .any

def isComparison : Tree → Bool
  | .node .binary [_, _, .token (.punct text _), _] => ["==", "<=", "!=", ">=", "<", ">"].contains text
  | _ => false

/-- The right operand: an operand extended by everything that binds more tightly. -/
def rightOperand (g : Grammar) (structs : Bool) (precedence : Precedence) : Parse Tree := do
  let first ← g.unary structs
  iterate first fun operand => do
    let next ← nextPrecedence
    let goesOn := precedence.rank < next.rank || (next = precedence && precedence = .assign)
    unless goesOn do return .finish operand
    let before := (← rest).length
    let extended ← g.climb structs next operand
    if (← rest).length = before then return .finish extended
    return .again extended

def rangeEnds (structs : Bool) : Parse Bool := do
  let trees ← rest
  return trees.isEmpty || sees (.op ",") trees || sees (.op ";") trees ||
    (sees (.op ".") trees && !sees (.op "..") trees) || sees (.op "?") trees || sees (.op "=>") trees ||
    (!structs && sees (.group .brace) trees) || sees (.op "=") trees || sees (.op "+") trees ||
    sees (.op "/") trees || sees (.op "%") trees || sees (.op "^") trees || sees (.op ">") trees ||
    sees (.op "<=") trees || sees (.op "!=") trees || sees (.op "-=") trees || sees (.op "*=") trees ||
    sees (.op "&=") trees || sees (.op "|=") trees || sees (.op "<<=") trees ||
    sees (.keyword "as") trees

def rangeTail (g : Grammar) (structs : Bool) : Parse (List Tree) := do
  let dots ← rangeDots false
  if dots.isPunct ".." && (← rangeEnds structs) then return [dots, .absent]
  return [dots, ← rightOperand g structs .range]

/-- What may not follow a cast directly. -/
def attachesToCast : Parse Bool := do
  return ((← peekOp ".") && !(← peekOp "..")) || (← peekAny [.op "?", .group .bracket, .group .paren])

/-- Continues an operand with operators that bind at least as tightly as `base`. -/
def climbRule (g : Grammar) (structs : Bool) (base : Precedence) (first : Tree) : Parse Tree :=
  iterate first fun left => do
    if left.kind? = some .range then return .finish left
    let trees ← rest
    match operatorAt trees with
    | some (text, precedence) =>
      if precedence.rank < base.rank then return .finish left
      if precedence = .compare && isComparison left then fail
      let sign ← op text
      return .again (plain .binary [left, sign, ← rightOperand g structs precedence])
    | none =>
      if base.rank ≤ Precedence.assign.rank && sees (.op "=") trees && !sees (.op "=>") trees then
        let sign ← op "="
        return .again (plain .assign [left, sign, ← rightOperand g structs .assign])
      else if base.rank ≤ Precedence.range.rank && sees (.op "..") trees then
        return .again (plain .range (left :: (← rangeTail g structs)))
      else if base.rank ≤ Precedence.cast.rank && sees (.keyword "as") trees then
        let asWord ← keyword "as"
        let type ← g.type false
        if ← attachesToCast then fail
        return .again (plain .cast [left, asWord, type])
      else return .finish left

/-! ### Attachments: calls, fields, indices -/

/-- A literal that has a point or exponent and so is lexed as one number. -/
def isPointed : Tree → Bool
  | .token (.literal text) =>
    match text.toList with
    | c :: _ => '0' ≤ c && c ≤ '9' && text.toList.contains '.'
    | [] => false
  | _ => false

/-- What follows a dot: `await`, a field, or a method call. -/
def member (g : Grammar) (operand dot : Tree) : Parse Tree := do
  if ← peekKeyword "await" then return plain .await [operand, dot, ← keyword "await"]
  let own ← memberName
  let named := sees .name [own]
  let arguments ←
    if named && (← peekOp "::") then
      unless ← seesAt 2 (.op "<") do fail
      genericArguments g
    else pure .absent
  if named && (!arguments.isAbsent || (← peek (.group .paren))) then
    return plain .methodCall [operand, dot, own, arguments, ← within .paren (commaList (g.expr true))]
  return plain .field [operand, dot, own]

/-- A dot and what follows it; a number with points in it stands for several fields. -/
def dotted (g : Grammar) (operand : Tree) : Parse Tree := do
  let dot ← op "."
  match ← maybe (takeIf isPointed) with
  | some (.token (.literal text)) =>
    match LiteralValue.fieldNumbers? text with
    | some (_, false) => return plain .field [operand, dot, .token (.literal text)]
    | some (_, true) => member g (plain .field [operand, dot, .token (.literal text)]) .absent
    | none => fail
  | _ => member g operand dot

def attachments (g : Grammar) (first : Tree) : Parse Tree :=
  iterate first fun operand => do
    let isRange := operand.kind? == some .range
    if ← peek (.group .paren) then
      return .again (plain .call [operand, ← within .paren (commaList (g.expr true))])
    else if (← peekOp ".") && !(← peekOp "..") && !isRange then return .again (← dotted g operand)
    else if ← peek (.group .bracket) then
      return .again (plain .index [operand, ← within .bracket (return [← g.expr true])])
    else if (← peekOp "?") && !isRange then return .again (plain .tryExpr [operand, ← op "?"])
    else return .finish operand

/-! ### Blocks and control flow -/

/-- A block as an expression, behind its attributes and label. -/
def blockExpr (g : Grammar) (attrs label : Tree) : Parse Tree :=
  return .node .block [attrs, label, ← g.block true]

def ifRule (g : Grammar) : Parse Tree := do
  let attrs ← outerAttributes g
  let head := [attrs, ← keyword "if", ← g.expr false, ← g.block false]
  unless ← peekKeyword "else" do return .node .ifExpr head
  let elseWord ← keyword "else"
  let branch ←
    if ← peekKeyword "if" then g.ifExpr
    else if ← peek (.group .brace) then pure (plain .block [.absent, ← g.block false])
    else fail
  return .node .ifExpr (head ++ [elseWord, branch])

/-- The expressions that end a statement or match arm by themselves. -/
def standsAlone : Tree → Bool
  | .node kind _ =>
    [Kind.ifExpr, .matchExpr, .block, .unsafeBlock, .whileExpr, .loopExpr, .forExpr, .tryBlock,
      .constBlock].contains kind
  | .token _ => false

def arm (g : Grammar) : Parse Tree := do
  let attrs ← outerAttributes g
  let pattern ← anyPattern g
  let guard ← if ← peekKeyword "if" then pure [← keyword "if", ← g.expr true] else pure []
  let arrow ← op "=>"
  let body ← g.early
  let comma ← if standsAlone body || (← atEnd) then op? "," else op ","
  return .node .arm ([attrs, pattern] ++ guard ++ [arrow, body, comma])

/-- A loop behind its attributes and label, a labelled block included. -/
def labelled (g : Grammar) (attrs label : Tree) : Parse Tree := do
  if ← peekKeyword "while" then
    return .node .whileExpr [attrs, label, ← keyword "while", ← g.expr false, ← g.block true]
  else if ← peekKeyword "for" then
    let head := [attrs, label, ← keyword "for", ← anyPattern g, ← keyword "in", ← g.expr false]
    return .node .forExpr (head ++ [← g.block true])
  else if ← peekKeyword "loop" then
    return .node .loopExpr [attrs, label, ← keyword "loop", ← g.block true]
  else if ← peek (.group .brace) then blockExpr g attrs label
  else fail

def label : Parse Tree := do
  return .node .sequence [← lifetime, ← op ":"]

/-! ### Operands -/

/-- Whether an expression can begin here, so that `return` or `break` takes one. -/
def canBegin : Parse Bool := do
  let trees ← rest
  let seesButNot (text : String) (others : List String) : Bool :=
    sees (.op text) trees && !others.any fun o => sees (.op o) trees
  return sees .word trees || sees (.group .paren) trees || sees (.group .bracket) trees ||
    sees (.group .brace) trees || sees .literal trees || seesButNot "!" ["!="] ||
    seesButNot "-" ["-=", "->"] || seesButNot "*" ["*="] || seesButNot "|" ["|="] ||
    seesButNot "&" ["&="] || sees (.op "..") trees || seesButNot "<" ["<=", "<<="] ||
    sees (.op "::") trees || sees .lifetime trees || sees (.op "#") trees

def fieldValue (g : Grammar) : Parse Tree := do
  let attrs ← outerAttributes g
  let own ← memberName
  if (← peekOp ":") || !sees .name [own] then
    return .node .fieldValue [attrs, own, ← op ":", ← g.expr true]
  return .node .fieldValue [attrs, plain .pathExpr [.node .path [.absent, .node .segment [own]]]]

/-- The fields of a structure expression; `..` with an optional base ends them. -/
def fieldValues (g : Grammar) : Parse (List Tree) :=
  iterate [] fun found => do
    if ← atEnd then return .finish found.reverse
    if ← peekOp ".." then
      let dots ← op ".."
      if ← atEnd then return .finish (dots :: found).reverse
      return .finish ((← g.expr true) :: dots :: found).reverse
    let field ← fieldValue g
    if ← atEnd then return .finish (field :: found).reverse
    return .again ((← op ",") :: field :: found)

def pathOrInvocation (g : Grammar) (structs : Bool) : Parse Tree := do
  let path ← qualifiedPath g true
  let isQualified := path.kind? == some .qualified
  if !isQualified && (← peekOp "!") && !(← peekOp "!=") && isPlain path then
    return plain .invocationExpr [← invocation g path]
  if structs && (← peek (.group .brace)) then
    return plain .structExpr [path, ← within .brace (fieldValues g)]
  return plain .pathExpr [path]

def parenthesised (g : Grammar) : Parse Tree := do
  let group ← within .paren (commaList (g.expr true))
  return plain (if group.children.length = 1 then .paren else .tuple) [group]

def bracketed (g : Grammar) : Parse Tree := do
  let group ← within .bracket (do
    if ← atEnd then return []
    let first ← g.expr true
    if ← peekOp ";" then return [first, ← op ";", ← g.expr true]
    if ← atEnd then return [first]
    let comma ← op ","
    return first :: comma :: (← commaList (g.expr true)))
  return plain .array [group]

/-- A parameter of a closure; a pattern that is kept unread loses its attributes. -/
def closureInput (g : Grammar) : Parse Tree := do
  let attrs ← outerAttributes g
  let pattern ← g.pattern
  if ← peekOp ":" then return .node .input [attrs, pattern, ← op ":", ← g.type true]
  return .node .input [if pattern.kind? = some .verbatimPattern then noAttributes else attrs, pattern]

def closure (g : Grammar) (structs : Bool) : Parse Tree := do
  let head := [← ifSees (.keyword "for") (binder g), ← keyword? "const", ← keyword? "static",
    ← keyword? "async", ← keyword? "move", ← op "|"]
  let inputs ← separated "," (peekOp "|") (closureInput g)
  let close ← op "|"
  if ← peekOp "->" then
    let result := Tree.node .returns [← op "->", ← g.type true]
    let body := plain .block [.absent, ← g.block false]
    return plain .closure (head ++ inputs ++ [close, result, body])
  return plain .closure (head ++ inputs ++ [close, ← g.expr structs])

def letExpr (g : Grammar) (structs : Bool) : Parse Tree := do
  let head := [← keyword "let", ← anyPattern g, ← op "="]
  let operand ← g.unary structs
  return plain .letExpr (head ++ [← g.climb structs .compare operand])

def breakExpr (g : Grammar) (structs : Bool) : Parse Tree := do
  let head ← keyword "break"
  if (← peek .lifetime) && (← seesAt 1 (.op ":")) then fail
  let target ← ifSees .lifetime lifetime
  let takes := (← canBegin) && (structs || !(← peek (.group .brace)))
  return plain .breakExpr [head, target, ← if takes then g.expr true else pure .absent]

/-- `return` and `yield` take a value if one can begin, also a structure or a block in a condition. -/
def valueAfter (g : Grammar) (kind : Kind) (text : String) : Parse Tree := do
  let head ← keyword text
  return plain kind [head, ← if ← canBegin then g.expr true else pure .absent]

def matchExpr (g : Grammar) : Parse Tree := do
  let head := [← keyword "match", ← g.expr false]
  return plain .matchExpr (head ++ [← within .brace (do
    let inner ← innerAttributes g
    let arms ← iterate [] fun found => do
      if ← atEnd then return .finish found.reverse
      return .again ((← arm g) :: found)
    return inner :: arms)])

def operand (g : Grammar) (structs : Bool) : Parse Tree := do
  let trees ← rest
  let second := trees.drop 1
  let third := trees.drop 2
  let keyed (text : String) : Bool := sees (.keyword text) trees
  if keyed "true" || keyed "false" then return plain .literal [← word]
  else if sees .literal trees && !sees (.op "-") trees then
    return plain .literal [← takeIf fun _ => true]
  else if keyed "async" && (sees (.group .brace) second ||
      (sees (.keyword "move") second && sees (.group .brace) third)) then
    return plain .asyncBlock [← word, ← keyword? "move", ← g.block false]
  else if keyed "try" && sees (.group .brace) second then
    return plain .tryBlock [← word, ← g.block false]
  else if sees (.op "|") trees || keyed "move" || (keyed "for" && (← choosesGenerics 1)) ||
      (keyed "const" && !sees (.group .brace) second) || keyed "static" ||
      (keyed "async" && (sees (.op "|") second || sees (.keyword "move") second)) then
    closure g structs
  else if keyed "builtin" && sees (.op "#") second then
    let _ := [← word, ← op "#", ← name, ← takeIf (isGroup .paren)]
    return plain .exprVerbatim [← takenSince trees]
  else if (← seesPathWord) || sees (.op "::") trees || sees (.op "<") trees ||
      (keyed "try" && (sees (.op "!") second || sees (.op "::") second)) then
    pathOrInvocation g structs
  else if sees (.group .paren) trees then parenthesised g
  else if keyed "break" then breakExpr g structs
  else if keyed "continue" then
    return plain .continueExpr [← word, ← ifSees .lifetime lifetime]
  else if keyed "return" then valueAfter g .returnExpr "return"
  else if keyed "become" then
    let _ ← word
    let _ ← g.expr true
    return plain .exprVerbatim [← takenSince trees]
  else if sees (.group .bracket) trees then bracketed g
  else if keyed "let" then letExpr g structs
  else if keyed "if" then ifRule g
  else if keyed "while" || keyed "for" || keyed "loop" || sees (.group .brace) trees then
    labelled g noAttributes .absent
  else if keyed "match" then matchExpr g
  else if keyed "yield" then valueAfter g .yieldExpr "yield"
  else if keyed "unsafe" then return plain .unsafeBlock [← word, ← g.block true]
  else if keyed "const" then return plain .constBlock [← word, ← g.block true]
  else if sees (.op "..") trees then return plain .range (.absent :: (← rangeTail g structs))
  else if keyed "_" then return plain .inferExpr [← word]
  else if sees .lifetime trees then labelled g noAttributes (← label)
  else fail

def unaryRule (g : Grammar) (structs : Bool) : Parse Tree := do
  let before ← rest
  let attrs ← outerAttributes g
  if ← peekOp "&" then
    let amp ← op "&"
    let raw := (← peekKeyword "raw") && ((← seesAt 1 (.keyword "mut")) || (← seesAt 1 (.keyword "const")))
    let modifiers ← if raw then pure [← word, ← word] else pure [.absent, ← keyword? "mut"]
    return .node .borrow (attrs :: amp :: modifiers ++ [← g.unary structs])
  else if ← peekAny [.op "*", .op "!", .op "-"] then
    let sign ← if ← peekOp "*" then op "*" else if ← peekOp "!" then op "!" else op "-"
    return .node .unary [attrs, sign, ← g.unary structs]
  else
    let whole ← attachments g (← operand g structs)
    match whole.kind? with
    | some .exprVerbatim => return plain .exprVerbatim [← takenSince before]
    | some .range =>
      require attrs.children.isEmpty
      return whole
    | _ => return .addAttributes attrs.children whole

/-- An expression; with `structs`, a brace behind a path begins a structure. -/
def exprRule (g : Grammar) (structs : Bool) : Parse Tree := do
  g.climb structs .any (← g.unary structs)

/-- An expression as a statement or arm, where one that ends in a block is not continued. -/
def earlyRule (g : Grammar) : Parse Tree := do
  let attrs ← outerAttributes g
  let trees ← rest
  let second := trees.drop 1
  let keyed (text : String) : Bool := sees (.keyword text) trees
  let alone := keyed "if" || keyed "while" || (keyed "for" && !(← choosesGenerics 1)) || keyed "loop" ||
    keyed "match" || (keyed "try" && sees (.group .brace) second) || keyed "unsafe" ||
    (keyed "const" && sees (.group .brace) second) || sees (.group .brace) trees || sees .lifetime trees
  if alone then
    let first ← operand g true
    if ((← peekOp ".") && !(← peekOp "..")) || (← peekOp "?") then
      let whole ← attachments g first
      g.climb true .any (.addAttributes attrs.children whole)
    else return .addAttributes attrs.children first
  else
    let first ← g.unary true
    g.climb true .any (.addAttributes attrs.children first)

end Grammar

end TestDouble
