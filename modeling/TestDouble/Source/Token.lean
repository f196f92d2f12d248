/-!
# Tokens

The smallest pieces of Rust source, and the two ways of writing a run of them on one line: the *flat*
form, which separates every punctuation character, and the *spaced* form, which keeps operators
together and hugs brackets.
-/

namespace TestDouble

inductive Delimiter where
  | paren
  | bracket
  | brace
  deriving DecidableEq

namespace Delimiter

def opening : Delimiter → Char
  | paren => '('
  | bracket => '['
  | brace => '\x7b'

def closing : Delimiter → Char
  | paren => ')'
  | bracket => ']'
  | brace => '\x7d'

def ofOpening? (c : Char) : Option Delimiter :=
  [paren, bracket, brace].find? fun d => d.opening = c

def ofClosing? (c : Char) : Option Delimiter :=
  [paren, bracket, brace].find? fun d => d.closing = c

end Delimiter

/-- One token. Identifiers, lifetimes and literals keep their exact spelling. -/
inductive Token where
  /-- An identifier or keyword; a raw one begins with `r#`. -/
  | ident (name : String)
  /-- A lifetime with its apostrophe. -/
  | lifetime (name : String)
  /-- Punctuation; `joint` when nothing separates it from punctuation that follows. -/
  | punct (text : String) (joint : Bool)
  | literal (text : String)
  | opening (delimiter : Delimiter)
  | closing (delimiter : Delimiter)
  deriving DecidableEq

namespace Token

/-- The pieces a token is split into in the flat form. -/
def pieces : Token → List String
  | ident name => [name]
  | lifetime name => [name]
  | punct text _ => text.toList.map fun c => String.singleton c
  | literal text => [text]
  | opening d => [String.singleton d.opening]
  | closing d => [String.singleton d.closing]

/-- The flat form: every piece set off by one blank. -/
def flat (tokens : List Token) : String :=
  " ".intercalate (tokens.flatMap pieces)

/--
What separates two neighbours in the spaced form: one blank, but none after joint punctuation and none
just inside parentheses and brackets. Braces have one blank after the opening one, and one before the
closing one unless they are empty.
-/
def gap : Token → Token → String
  | opening .brace, closing .brace => " "
  | opening .brace, _ => " "
  | opening _, _ => ""
  | _, closing .brace => " "
  | _, closing _ => ""
  | punct _ true, _ => ""
  | _, _ => " "

def spaced : List Token → String
  | [] => ""
  | [t] => "".intercalate t.pieces
  | t :: next :: rest => "".intercalate t.pieces ++ gap t next ++ spaced (next :: rest)

end Token

end TestDouble
