import TestDouble.Source.Tree
/-!
# Views of trees

What the rest of the library asks of a tree: the names and segments of a path, the parts of calls,
signatures and items. A view of a tree of another kind is empty or `none`.
-/

namespace TestDouble

/-! ### Paths -/

namespace Tree

def segments : Tree → List Tree
  | .node .path children => children.filter fun t => t.kind? == some .segment
  | _ => []

def segmentName : Tree → String
  | .node .segment (.token (.ident name) :: _) => name
  | _ => ""

def hasArguments : Tree → Bool
  | .node .segment (_ :: _ :: _) => true
  | _ => false

def names (path : Tree) : List String := path.segments.map segmentName

/-- Whether a path begins with `::`. -/
def isRootPath : Tree → Bool
  | .node .path (first :: _) => first.isPunct "::"
  | _ => false

/-- The one name of a path that has no other parts. -/
def onlyName? (path : Tree) : Option String :=
  match path.segments with
  | [segment] => if path.isRootPath || segment.hasArguments then none else some segment.segmentName
  | _ => none

/-- The path of an expression or type that is nothing but an unqualified path. -/
def asPath? : Tree → Option Tree
  | .node .pathExpr [_, .node .path children] => some (.node .path children)
  | .node .typePath [.node .path children] => some (.node .path children)
  | _ => none

/-! ### Attributes -/

/-- The attributes that an item, member or expression begins with. -/
def outerAttributes : Tree → List Tree
  | .node _ (.node .attributes attrs :: _) => attrs
  | _ => []

def innerAttributes : Tree → List Tree
  | .node (.group .brace) (.node .attributes attrs :: _) => attrs
  | _ => []

def statements : Tree → List Tree
  | .node (.group .brace) (_ :: rest) => rest
  | _ => []

def attributePath? : Tree → Option Tree
  | .node .attr [_, _, .node (.group .bracket) (path :: _)] => some path
  | _ => none

/-! ### Calls -/

def elements : Tree → List Tree
  | .node (.group _) children => children.filter fun t => !t.isPunct ","
  | _ => []

end Tree

/-- A call: what is called, and the group of its arguments. -/
structure Call where
  attributes : Tree
  callee : Tree
  arguments : Tree

namespace Call

def toTree (call : Call) : Tree := .node .call [call.attributes, call.callee, call.arguments]

end Call

structure MethodCall where
  receiver : Tree
  name : String
  arguments : Tree

namespace Tree

def asCall? : Tree → Option Call
  | .node .call [attributes, callee, arguments] => some ⟨attributes, callee, arguments⟩
  | _ => none

def asMethodCall? : Tree → Option MethodCall
  | .node .methodCall [_, receiver, _, .token (.ident name), _, arguments] => some ⟨receiver, name, arguments⟩
  | _ => none

end Tree

/-! ### Signatures -/

structure Signature where
  constness : Tree
  asyncness : Tree
  unsafety : Tree
  name : String
  generics : Tree
  inputs : Tree
  output : Tree

namespace Tree

def asSignature? : Tree → Option Signature
  | .node .signature [constness, asyncness, unsafety, _, _, .token (.ident name), generics, inputs, output, _] =>
    some { constness, asyncness, unsafety, name, generics, inputs, output }
  | _ => none

/-- The result type of a signature, if one is written. -/
def resultType? (signature : Tree) : Option Tree :=
  match signature.asSignature? with
  | some { output := .node .returns [_, type], .. } => some type
  | _ => none

def signatureName (signature : Tree) : String :=
  (signature.asSignature?.map (·.name)).getD ""

def parameters : Tree → List Tree
  | .node .generics children => children.filter fun t =>
      [some Kind.lifetimeParameter, some .typeParameter, some .constParameter].contains t.kind?
  | _ => []

def parameterName? : Tree → Option String
  | .node .typeParameter (_ :: .token (.ident name) :: _) => some name
  | .node .constParameter (_ :: _ :: .token (.ident name) :: _) => some name
  | _ => none

def boundList : Tree → List Tree
  | .node .bounds (_ :: rest) => rest.filter fun t => !t.isPunct "+"
  | _ => []

end Tree

/-! ### Items -/

structure Function where
  attributes : List Tree
  signature : Tree
  body : Tree

namespace Function

def name (function : Function) : String := function.signature.signatureName

end Function

structure TraitItem where
  isUnsafe : Bool
  name : String
  parameters : List Tree
  supertraits : List Tree
  members : List Tree

/-- A module item; `items` is `none` when its content is elsewhere. -/
structure ModuleItem where
  name : String
  items : Option (List Tree)

namespace Tree

def asFunction? : Tree → Option Function
  | .node .itemFn [.node .attributes outer, _, signature, body] =>
    some { attributes := outer ++ body.innerAttributes, signature, body }
  | _ => none

def asTrait? : Tree → Option TraitItem
  | .node .itemTrait [_, _, unsafety, _, _, .token (.ident name), generics, bounds, _,
      .node (.group .brace) (_ :: members)] =>
    some { isUnsafe := !unsafety.isAbsent, name, parameters := generics.parameters,
           supertraits := bounds.boundList, members }
  | _ => none

def asModule? : Tree → Option ModuleItem
  | .node .itemMod [_, _, _, _, .token (.ident name), .node (.group .brace) (_ :: items)] =>
    some { name, items := some items }
  | .node .itemMod [_, _, _, _, .token (.ident name), _] => some { name, items := none }
  | _ => none

def methodSignature? : Tree → Option Tree
  | .node .traitFn [_, signature, _] => some signature
  | _ => none

def constant? : Tree → Option (String × Tree)
  | .node .itemConst [_, _, _, .token (.ident name), _, _, _, _, value, _, _] => some (name, value)
  | _ => none

end Tree

end TestDouble
