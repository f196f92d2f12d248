import TestDouble.Source.Token
/-!
# Concrete trees

Source is held as a lossless tree: the leaves, read from left to right, are the tokens as written, and
the inner nodes say what was recognised. Everything that walks over source (collecting, checking,
changing) is a recursion over this one type.
-/

namespace TestDouble

/--
What a node stands for. The comment behind a kind gives its children: quoted text is a token, a name
followed by `?` may be `absent`, and every expression begins with its `attributes`.
-/
inductive Kind where
  /-- Nothing is written here. -/
  | absent
  /-- A run of children with no meaning of its own. -/
  | sequence
  /-- A bracketed group; the brackets are not among the children. -/
  | group (delimiter : Delimiter)
  /-- Tokens that are kept unread. -/
  | verbatim
  /-- Outer or inner attributes, one node each. -/
  | attributes
  /-- `#`, `!`?, bracket group of a path and what follows it. -/
  | attr
  /-- The group of unread tokens behind an attribute path or a call of a macro by name. -/
  | unread
  /-- Path, `!`, name?, then `unread` or `arguments`. -/
  | invocation
  /-- One group whose content reads as expressions separated by commas. -/
  | arguments
  /-- `::`? and segments separated by `::`; behind a qualified type also its closing `>`. -/
  | path
  /-- An identifier, then `genericArguments` or `callArguments` or nothing. -/
  | segment
  /-- `<`, type, then `as` with a path that holds the `>`, or `>` with a path. -/
  | qualified
  /-- `::`?, `<`, arguments, `>`. -/
  | genericArguments
  /-- Parenthesised types and a `returns`?, as in `Fn(u8) -> u8`; a leading `::`? may stand before. -/
  | callArguments
  /-- Identifier, arguments?, `=`, type or constant. -/
  | associated
  /-- Identifier, arguments?, `:`, bounds. -/
  | constraint
  | lifetime
  /-- `<`, parameters, `>`. -/
  | generics
  | lifetimeParameter
  | typeParameter
  | constParameter
  /-- `:` and the bounds behind it. -/
  | bounds
  | whereClause
  | wherePredicate
  /-- `for`, `<`, lifetimes, `>`. -/
  | binder
  /-- `?`?, binder?, path; in parentheses when the source has them. -/
  | traitBound
  /-- The bound of a constant trait, unread. -/
  | verbatimBound
  | preciseCapture
  -- types
  | typePath
  /-- `&`, lifetime?, `mut`?, type. -/
  | typeReference
  | typePointer
  | typeTuple
  | typeParen
  | typeArray
  | typeSlice
  | typeNever
  | typeInfer
  | typeFunction
  /-- `dyn`? and bounds separated by `+`. -/
  | typeObject
  | typeImpl
  | typeInvocation
  /-- A type that is read over but has no meaning here. -/
  | typeVerbatim
  -- patterns
  | pattern
  /-- Attributes, name or number, `:`, pattern. -/
  | fieldPattern
  | patternRest
  /-- Start?, dots, end?. -/
  | rangePattern
  /-- A pattern that is read over but has no meaning here. -/
  | verbatimPattern
  -- expressions
  | literal
  | pathExpr
  /-- Attributes, callee, parenthesised arguments. -/
  | call
  /-- Attributes, receiver, `.`, name, generic arguments?, parenthesised arguments. -/
  | methodCall
  /--
  Attributes, operand, `.`, name or number. Numbers may have been lexed as one literal with points in it,
  and the dot of the next access with them.
  -/
  | field
  | index
  | tryExpr
  | await
  /-- Attributes, operator, operand. -/
  | unary
  /-- Attributes, left, operator, right. -/
  | binary
  | assign
  /-- Attributes, operand, `as`, type. -/
  | cast
  /-- Attributes, start?, dots, end?. -/
  | range
  /-- Attributes, `&`, `raw`?, `mut` or `const`?, operand. -/
  | borrow
  /-- Attributes, group of one expression. -/
  | paren
  | tuple
  | array
  | closure
  | block
  | ifExpr
  | whileExpr
  | forExpr
  | loopExpr
  | matchExpr
  | unsafeBlock
  | constBlock
  | asyncBlock
  | tryBlock
  | letExpr
  | structExpr
  | breakExpr
  | continueExpr
  | returnExpr
  | yieldExpr
  | inferExpr
  | invocationExpr
  | exprVerbatim
  /-- Attributes, name or number, then `:` and a value unless the name is the value. -/
  | fieldValue
  | arm
  -- statements
  | localStmt
  | exprStmt
  | invocationStmt
  -- items
  | visibility
  /-- `const`?, `async`?, `unsafe`?, abi?, `fn`, name, generics?, inputs, output?, where?. -/
  | signature
  /-- Attributes, `&`?, lifetime?, `mut`?, `self`, annotation?. -/
  | receiver
  /-- Attributes, pattern, `:`, type. -/
  | input
  /-- Attributes, type. -/
  | namelessInput
  | variadic
  /-- `->`, type. -/
  | returns
  /-- Attributes, visibility?, signature, body. -/
  | itemFn
  /-- Attributes, visibility?, `unsafe`?, `mod`, name, content or `;`. -/
  | itemMod
  /-- Attributes, visibility?, `unsafe`?, `auto`?, `trait`, name, generics?, bounds?, where?, members. -/
  | itemTrait
  | itemImpl
  /-- Attributes, visibility?, `const`, name, generics?, `:`, type, `=`, value, where?, `;`. -/
  | itemConst
  | itemStatic
  /-- Attributes, visibility?, `struct`, name, generics?, fields. -/
  | itemStruct
  | itemEnum
  | itemUnion
  /-- Attributes, visibility?, `type`, name, generics?, bounds?, where?, `=`, type, where?, `;`. -/
  | itemType
  /-- Attributes, visibility?, `use`, `::`?, import tree, `;`. -/
  | itemUse
  | itemInvocation
  | itemCrate
  | itemForeign
  | itemTraitAlias
  /-- An item that is read over but has no meaning here. -/
  | itemVerbatim
  /-- Attributes, visibility?, name, fields?, then `=` and a value if one is given. -/
  | variant
  | fieldDecl
  -- import trees
  /-- Name, `::`, import tree. -/
  | usePath
  | useName
  /-- Name, `as`, new name. -/
  | useRename
  | useGlob
  | useGroup
  -- members
  /-- Attributes, signature, body or `;`. -/
  | traitFn
  /-- Attributes, `const`, name, and the rest. -/
  | traitConst
  /-- Attributes, `type`, name, and the rest. -/
  | traitType
  /-- Attributes, invocation, `;`?. -/
  | traitInvocation
  /-- Attributes, visibility?, `default`?, signature, body. -/
  | implFn
  | implConst
  | implType
  | implInvocation
  | foreignMember
  deriving DecidableEq

/-- A concrete tree over tokens. -/
inductive Tree where
  | token (token : Token)
  | node (kind : Kind) (children : List Tree)

namespace Tree

instance : Inhabited Tree := ⟨.node .absent []⟩

def absent : Tree := .node .absent []

def group (delimiter : Delimiter) (children : List Tree) : Tree :=
  .node (.group delimiter) children

def ident (name : String) : Tree := .token (.ident name)

def punct (text : String) : Tree := .token (.punct text false)

mutual

/-- The tokens of a tree, from left to right. -/
def tokens : Tree → List Token
  | .token t => [t]
  | .node (.group d) children => .opening d :: (tokensAll children ++ [.closing d])
  | .node _ children => tokensAll children

def tokensAll : List Tree → List Token
  | [] => []
  | tree :: rest => tokens tree ++ tokensAll rest

end

theorem tokensAll_eq_flatMap (trees : List Tree) : tokensAll trees = trees.flatMap tokens := by
  induction trees with
  | nil => rfl
  | cons first rest ih => simp [tokensAll, ih]

theorem tokensAll_append (left right : List Tree) :
    tokensAll (left ++ right) = tokensAll left ++ tokensAll right := by
  rw [tokensAll_eq_flatMap, tokensAll_eq_flatMap, tokensAll_eq_flatMap, List.flatMap_append]

mutual

def size : Tree → Nat
  | .token _ => 1
  | .node _ children => sizeAll children + 1

def sizeAll : List Tree → Nat
  | [] => 0
  | tree :: rest => size tree + sizeAll rest

end

def isAbsent : Tree → Bool
  | .node .absent _ => true
  | _ => false

def kind? : Tree → Option Kind
  | .token _ => none
  | .node kind _ => some kind

def children : Tree → List Tree
  | .token _ => []
  | .node _ children => children

def ident? : Tree → Option String
  | .token (.ident name) => some name
  | _ => none

def isPunct (text : String) : Tree → Bool
  | .token (.punct spelling _) => spelling == text
  | _ => false

end Tree

end TestDouble
