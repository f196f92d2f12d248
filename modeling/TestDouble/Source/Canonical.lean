import TestDouble.Source.Condition
import TestDouble.Source.Literal
/-!
# Canonical form

Code is written in one canonical form: in a list of parameters or generic arguments the lifetimes come
first, empty lists of parameters, bounds and conditions are left out, arguments in parentheses have no `::`
before them, every parameter has a pattern, a variant has no visibility, and every number of a field
stands behind a dot of its own. A range pattern that includes its end is written `..=`. Parentheses set off
a range from attributes in front of it, the value of `break` from a label that it begins with, and a block
from the condition it ends. What was kept unread, and the arguments of an invocation, stay as they are.
-/

namespace TestDouble.Tree

/-- The elements of a list, each with the comma behind it. -/
def commaPairs : List Tree → List (Tree × Option Tree)
  | [] => []
  | [element] => [(element, none)]
  | element :: next :: rest =>
    if next.isPunct "," then (element, some next) :: commaPairs rest
    else (element, none) :: commaPairs (next :: rest)

def ofPairs (pairs : List (Tree × Option Tree)) : List Tree :=
  pairs.flatMap fun (element, comma) => element :: comma.toList

def isLifetime : Tree → Bool
  | .node .lifetime _ => true
  | .node .lifetimeParameter _ => true
  | _ => false

/-- The list with its lifetimes in front, and a comma behind the last of them if more follows. -/
def lifetimesFirst (elements : List Tree) : List Tree :=
  let pairs := commaPairs elements
  let first := pairs.filter fun pair => isLifetime pair.1
  let others := pairs.filter fun pair => !isLifetime pair.1
  let gap := match first.getLast?, others with
    | some (_, none), _ :: _ => [Tree.punct ","]
    | _, _ => []
  ofPairs first ++ gap ++ ofPairs others

def number (value : Nat) : Tree := .token (.literal (toString value))

/-- The dots and numbers that a literal behind a dot stands for. -/
def numberFields (dot : Tree) (spelling : String) : List Tree :=
  match LiteralValue.fieldNumbers? spelling with
  | some (numbers, dotted) => numbers.flatMap (fun value => [dot, number value]) ++ if dotted then [dot] else []
  | none => [dot, .token (.literal spelling)]

/-- The name of a field, a number in plain decimal digits. -/
def fieldName : Tree → Tree
  | .token (.literal spelling) =>
    match LiteralValue.fieldNumber? spelling with
    | some value => number value
    | none => .token (.literal spelling)
  | tree => tree

/-- Whether an expression begins with a label when its attributes are set aside. -/
def leadsWithLabel : Tree → Bool
  | .node kind (_ :: first :: _) =>
    match kind with
    | .block | .whileExpr | .forExpr | .loopExpr => !first.isAbsent
    | .binary | .assign | .cast | .range | .call | .methodCall | .field | .index | .tryExpr | .await =>
      leadsWithLabel first
    | _ => false
  | _ => false

def normalNode : Kind → List Tree → Tree
  | .generics, opening :: rest =>
    if rest.length ≤ 1 then absent
    else .node .generics (opening :: lifetimesFirst rest.dropLast ++ rest.getLast?.toList)
  | .genericArguments, lead :: opening :: rest =>
    .node .genericArguments (lead :: opening :: lifetimesFirst rest.dropLast ++ rest.getLast?.toList)
  | .preciseCapture, useWord :: opening :: rest =>
    .node .preciseCapture (useWord :: opening :: lifetimesFirst rest.dropLast ++ rest.getLast?.toList)
  | .bounds, [_] => absent
  | .whereClause, [_] => absent
  | .callArguments, [_, inputs, result] => .node .callArguments [absent, inputs, result]
  | .field, [attributes, operand, dot, .token (.literal spelling)] =>
    .node .field (attributes :: operand :: numberFields dot spelling)
  | .namelessInput, [attributes, type] => .node .input [attributes, ident "_", punct ":", type]
  | .variant, attributes :: _ :: rest => .node .variant (attributes :: absent :: rest)
  | .fieldValue, attributes :: own :: rest => .node .fieldValue (attributes :: fieldName own :: rest)
  | .fieldPattern, attributes :: own :: rest => .node .fieldPattern (attributes :: fieldName own :: rest)
  | .rangePattern, [start, dots, stop] =>
    .node .rangePattern [start, if dots.isPunct "..." then punct "..=" else dots, stop]
  | .input, [.node .attributes (first :: more), .node .rangePattern parts] =>
    .node .input [.node .attributes (first :: more), group .paren [.node .rangePattern parts]]
  | .range, .node .attributes (first :: more) :: rest =>
    parenthesized (first :: more) (.node .range (.node .attributes [] :: rest))
  | .breakExpr, [attributes, breakWord, target, value] =>
    let enclosedValue := if target.isAbsent && leadsWithLabel value then parenthesized [] value else value
    .node .breakExpr [attributes, breakWord, target, enclosedValue]
  | kind, children => .node kind children

mutual

def normal : Tree → Tree
  | .node .unread children => .node .unread children
  | .node .arguments children => .node .arguments children
  | .node kind children => normalNode kind (normalAll children)
  | .token t => .token t

def normalAll : List Tree → List Tree
  | [] => []
  | tree :: rest => normal tree :: normalAll rest

end

theorem normalAll_eq_map (trees : List Tree) : normalAll trees = trees.map normal := by
  induction trees with
  | nil => rfl
  | cons first rest ih => simp [normalAll, ih]

theorem normal_node {kind : Kind} {children : List Tree} (read : kind ≠ .unread) (reread : kind ≠ .arguments) :
    (node kind children).normal = normalNode kind (children.map normal) := by
  rw [normal, normalAll_eq_map]
  · exact read
  · exact reread

/-- The canonical form of a tree. -/
def canonical (tree : Tree) : Tree := tree.normal.enclosed .free

def canonicalAll (trees : List Tree) : List Tree := trees.map canonical

def written (tree : Tree) : List Token := tree.canonical.tokens

/-- The canonical form with every piece set off by a blank. -/
def flat (tree : Tree) : String := Token.flat tree.written

def spaced (tree : Tree) : String := Token.spaced tree.written

end TestDouble.Tree
