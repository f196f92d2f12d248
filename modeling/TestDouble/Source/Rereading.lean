import TestDouble.Source.Canonical
import TestDouble.Source.Grammar
/-!
# Reading generated code

Generated code is put together from token trees, some of them taken over from the source in their canonical
form. Most of it is then read again, as the form that it is meant to have.
-/

namespace TestDouble

namespace Tree

/-- The characters of an operator: each joins the next one, and the last one as the whole did. -/
def operatorTrees (joint : Bool) : List Char → List Tree
  | [] => []
  | [c] => [.token (.punct (String.singleton c) joint)]
  | c :: next :: rest => .token (.punct (String.singleton c) true) :: operatorTrees joint (next :: rest)

mutual

/-- The token trees of a tree, as a lexer gives them: single tokens, and the groups around them. -/
def lexed : Tree → List Tree
  | .token (.punct text joint) => operatorTrees joint text.toList
  | .token t => [.token t]
  | .node (.group d) children => [group d (lexedAll children)]
  | .node _ children => lexedAll children

def lexedAll : List Tree → List Tree
  | [] => []
  | tree :: rest => lexed tree ++ lexedAll rest

end

/-- Whether generated code reads by a rule, all of it. -/
def rereads (rule : Grammar → Parse Tree) (generated : List Tree) : Bool :=
  (Grammar.readAll (lexedAll (canonicalAll generated)) rule).isSome

end Tree

namespace Grammar

/-- A method of an implementation, which has a body. -/
def method (g : Grammar) : Parse Tree := do
  return .node .implFn
    [← outerAttributes g, ← visibility, ← Parse.keyword? "default", ← signature g, ← g.block true]

/-- A rule for items behind the attributes that they begin with. -/
def attributed (rule : Grammar → Tree → Parse Tree) (g : Grammar) : Parse Tree := do
  rule g (← outerAttributes g)

/-- A structure. -/
def itemStruct (g : Grammar) (attrs : Tree) : Parse Tree := do
  let head := [attrs, ← visibility, ← Parse.keyword "struct", ← Parse.name, ← generics g]
  return .node .itemStruct (head ++ (← structBody g))

end Grammar

end TestDouble
