import TestDouble.Source.Grammar.Item
import TestDouble.Source.Lexer
/-!
# Reading source

The rules are closed by a bound on how deeply they may nest in one another. Between two nested uses of
the same rule a token is taken, so a small multiple of the size of the input is never reached.
-/

namespace TestDouble

namespace Grammar

def step (g : Grammar) : Grammar where
  path := pathRule g
  type := typeRule g
  pattern := patternRule g
  expr := exprRule g
  unary := unaryRule g
  climb := climbRule g
  ifExpr := ifRule g
  early := earlyRule g
  block := blockRule g
  item := itemRule g
  useTree := useTreeRule g
  parameter := parameterRule g
  field := fieldRule g

/-- The rules, nested at most so many levels deep. -/
def bounded : Nat → Grammar
  | 0 => ⟨fun _ => Parse.fail, fun _ => Parse.fail, Parse.fail, fun _ => Parse.fail, fun _ => Parse.fail,
      fun _ _ _ => Parse.fail, Parse.fail, Parse.fail, fun _ => Parse.fail, Parse.fail,
      fun _ => Parse.fail, Parse.fail, Parse.fail⟩
  | level + 1 => step (bounded level)

/-- The rules for an input of the given token trees. -/
def forTrees (trees : List Tree) : Grammar :=
  bounded (4 * Tree.sizeAll trees + 8)

def readAll (trees : List Tree) (rule : Grammar → Parse Tree) : Option Tree :=
  Parse.complete (rule (forTrees trees)) trees

def readText (text : String) (rule : Grammar → Parse Tree) : Option Tree :=
  (Lexer.readTrees text).bind fun trees => readAll trees rule

end Grammar

namespace Tree
open Grammar Parse

def readExpr (text : String) : Option Tree := readText text fun g => g.expr true

def readType (text : String) : Option Tree := readText text fun g => g.type true

def readFunction (text : String) : Option Tree := readText text fun g => do itemFn g (← Grammar.outerAttributes g)

def readTrait (text : String) : Option Tree := readText text fun g => do itemTrait g (← Grammar.outerAttributes g)

def readModule (text : String) : Option Tree := readText text fun g => do itemMod g (← Grammar.outerAttributes g)

def readConst (text : String) : Option Tree :=
  (readText text fun g => do itemConst g (← Grammar.outerAttributes g)).filter fun t => t.kind? == some .itemConst

def readTraitFn (text : String) : Option Tree :=
  (readText text traitMember).filter fun t => t.kind? == some .traitFn

end Tree

end TestDouble
