import TestDouble.Text.CharClass
/-!
# Escaped text

The visible spelling of characters and strings: what has no visible form of its own, and every
mark that would attach to the character before it, is written by its code point.
-/

namespace TestDouble.Text

def isExtending (c : Char) : Bool :=
  127 < c.toNat && CharClass.within CharClass.extending c.toNat

/-- A character with a visible form, or the plain blank. -/
def isPrintable (c : Char) : Bool :=
  if c.toNat < 128 then 32 ≤ c.toNat && c.toNat < 127
  else !CharClass.within CharClass.unprintable c.toNat

/-- The code point as `\u` with lower-case hexadecimal digits in braces. -/
def codePoint (c : Char) : List Char :=
  ['\\', 'u', '\x7b'] ++ Nat.toDigits 16 c.toNat ++ ['\x7d']

structure Quotes where
  single : Bool
  double : Bool

def escape (quotes : Quotes) (c : Char) : List Char :=
  if c = '\x00' then ['\\', '0']
  else if c = '\t' then ['\\', 't']
  else if c = '\r' then ['\\', 'r']
  else if c = '\n' then ['\\', 'n']
  else if c = '\\' then ['\\', '\\']
  else if c = '\'' then if quotes.single then ['\\', '\''] else ['\'']
  else if c = '"' then if quotes.double then ['\\', '"'] else ['"']
  else if isExtending c then codePoint c
  else if isPrintable c then [c]
  else codePoint c

/-- Inside a string the double quote is escaped, inside a character the single one. -/
def inString : Quotes := ⟨false, true⟩

@[inherit_doc inString]
def inCharacter : Quotes := ⟨true, false⟩

/-- A string as shown to a reader, in double quotes. -/
def quoted (text : String) : String :=
  String.ofList ('"' :: text.toList.flatMap (escape inString) ++ ['"'])

/-- A character as shown to a reader, in single quotes; it is also its literal. -/
def quotedChar (c : Char) : String :=
  String.ofList ('\'' :: escape inCharacter c ++ ['\''])

/--
The body of a string literal. It differs from the shown form in one point: a NUL before an octal
digit is written `\x00`, so that no reader takes the digit into the escape.
-/
def literalBody : List Char → List Char
  | [] => []
  | c :: rest =>
    (match c, rest with
    | '\x00', d :: _ => if '0' ≤ d && d ≤ '7' then ['\\', 'x', '0', '0'] else ['\\', '0']
    | _, _ => escape inString c) ++ literalBody rest

def stringLiteral (text : String) : String :=
  String.ofList ('"' :: literalBody text.toList ++ ['"'])

end TestDouble.Text
