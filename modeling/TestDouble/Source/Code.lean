import TestDouble.Source.Lexer
/-!
# Pieces of generated code

Fixed pieces of generated code are kept as text and cut into token trees here.
-/

namespace TestDouble

def code (text : String) : List Tree := (Lexer.readTrees text).getD []

/-- The trees of a text by its characters, for texts that are cut by computing in proofs. -/
def codeOf (chars : List Char) : List Tree :=
  let own := match chars with
    | '\ufeff' :: rest => rest
    | all => all
  (((Lexer.scanTokens (own.length + 1) own []).map List.reverse).bind fun tokens => Lexer.nest tokens [] []).getD []

theorem code_ofList (chars : List Char) : code (String.ofList chars) = codeOf chars := by
  rw [code, Lexer.readTrees, Lexer.readTokens, String.toList_ofList]
  rfl

end TestDouble
