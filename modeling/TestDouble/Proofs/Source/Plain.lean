import TestDouble.Source.Tree
/-!
# Plain items

The simplest items, types and expressions, in the shape in which reading source yields them.
-/

namespace TestDouble.Tree

def noAttributes : Tree := .node .attributes []

/-- Items in braces, behind no inner attributes. -/
def body (items : List Tree) : Tree := group .brace (noAttributes :: items)

def plainPath (names : List String) : Tree :=
  .node .path (absent :: (names.map fun name => node .segment [ident name]).intersperse (punct "::"))

def namedType (names : List String) : Tree := .node .typePath [plainPath names]

def inlineModule (name : String) (items : List Tree) : Tree :=
  .node .itemMod [noAttributes, absent, absent, ident "mod", ident name, body items]

/-- An import of one item under its own name: `use above::name;`. -/
def plainImport (above : List String) (name : String) : Tree :=
  let tree := above.foldr (fun word inner => .node .usePath [ident word, punct "::", inner])
    (.node .useName [ident name])
  .node .itemUse [noAttributes, absent, ident "use", absent, tree, punct ";"]

/-- An import of one item under a name of its own: `use above::name as own;`. -/
def renamingImport (above : List String) (name own : String) : Tree :=
  let tree := above.foldr (fun word inner => .node .usePath [ident word, punct "::", inner])
    (.node .useRename [ident name, ident "as", ident own])
  .node .itemUse [noAttributes, absent, ident "use", absent, tree, punct ";"]

/-- A type alias: `type name = aliased;`. -/
def aliasItem (name : String) (aliased : Tree) : Tree :=
  .node .itemType [noAttributes, absent, ident "type", ident name, absent, absent, absent, punct "=", aliased,
    absent, punct ";"]

/-- A constant: `const name: type = value;`. -/
def constantItem (name : String) (type value : Tree) : Tree :=
  .node .itemConst [noAttributes, absent, ident "const", ident name, absent, punct ":", type, punct "=", value, absent,
    punct ";"]

/-- A signature without parameters in angle brackets and without result. -/
def plainSignature (name : String) (inputs : List Tree) : Tree :=
  .node .signature [absent, absent, absent, absent, ident "fn", ident name, absent, group .paren inputs, absent,
    absent]

/-- A method of a trait that takes one more value: `fn name(&self, value: type);`. -/
def takingMethod (name : String) (type : Tree) : Tree :=
  let receiver := Tree.node .receiver [noAttributes, punct "&", absent, absent, ident "self"]
  let input := Tree.node .input [noAttributes, .node .pattern [absent, absent, ident "value"], punct ":", type]
  .node .traitFn [noAttributes, plainSignature name [receiver, punct ",", input], punct ";"]

/-- A method of a trait that takes nothing more and returns a value: `fn name(&self) -> type;`. -/
def returningMethod (name : String) (type : Tree) : Tree :=
  let receiver := Tree.node .receiver [noAttributes, punct "&", absent, absent, ident "self"]
  let output := Tree.node .returns [punct "->", type]
  .node .traitFn [noAttributes, .node .signature [absent, absent, absent, absent, ident "fn", ident name, absent,
    group .paren [receiver], output, absent], punct ";"]

def plainTrait (name : String) (members : List Tree) : Tree :=
  .node .itemTrait [noAttributes, absent, absent, absent, ident "trait", ident name, absent, absent, absent,
    body members]

def plainFunction (name : String) (statements : List Tree) : Tree :=
  .node .itemFn [noAttributes, absent, plainSignature name [], body statements]

/-- A function with the attribute `#[test]`. -/
def testFunction (name : String) (statements : List Tree) : Tree :=
  let mark := Tree.node .attr [punct "#", absent, group .bracket [plainPath ["test"]]]
  .node .itemFn [.node .attributes [mark], absent, plainSignature name [], body statements]

/-- The creation of a double: `dispatcher::of::<dyn contract>()`. -/
def creationCall (dispatcher : String) (contract : List String) : Tree :=
  let bound := Tree.node .traitBound [absent, absent, plainPath contract]
  let arguments := Tree.node .genericArguments
    [punct "::", punct "<", .node .typeObject [ident "dyn", bound], punct ">"]
  let path := Tree.node .path
    [absent, .node .segment [ident dispatcher], punct "::", .node .segment [ident "of", arguments]]
  .node .call [noAttributes, .node .pathExpr [noAttributes, path], group .paren []]

def creation (dispatcher : String) (contract : List String) : Tree :=
  .node .exprStmt [creationCall dispatcher contract, punct ";"]

def methodCall (receiver : Tree) (name : String) (arguments : List Tree) : Tree :=
  .node .methodCall [noAttributes, receiver, punct ".", ident name, absent, group .paren arguments]

/-- The configuration of a method: `double.method().returns(value);`. -/
def configuration (double method : String) (value : Tree) : Tree :=
  let name := Tree.node .pathExpr [noAttributes, plainPath [double]]
  .node .exprStmt [methodCall (methodCall name method []) "returns" [value], punct ";"]

/-- A block as a statement: `{ statements }`. -/
def blockStatement (statements : List Tree) : Tree :=
  .node .exprStmt [.node .block [noAttributes, absent, body statements], absent]

def nameExpr (names : List String) : Tree := .node .pathExpr [noAttributes, plainPath names]

def literalExpr (spelling : String) : Tree := .node .literal [noAttributes, .token (.literal spelling)]

end TestDouble.Tree
