import TestDouble.Source.Lexer
import TestDouble.Number.Decimal
/-!
# Values of literals

What a literal token stands for. The token has been lexed, so its spelling is well-formed; a part that
is not would only end the value early.
-/

namespace TestDouble

/-- The value of a literal, with the suffix behind a string. -/
inductive LiteralValue where
  | text (value suffix : String)
  | char (value : Char)
  | byte (value : Nat)
  | integer (value : Nat)
  | float (value : BinaryFloat.Decimal)
  /-- Byte strings and C strings. -/
  | other

namespace LiteralValue
open Lexer (Chars)
open TestDouble.Text

/-- The character behind a backslash that is no hexadecimal escape. -/
def simpleEscape : Char → Char
  | 'n' => '\n'
  | 'r' => '\r'
  | 't' => '\t'
  | '0' => '\x00'
  | c => c

/-- The character that an escape stands for, and the rest behind it. -/
def unescape : Chars → Option (Char × Chars)
  | 'x' :: high :: low :: rest => some (Char.ofNat (Lexer.hexValue high * 16 + Lexer.hexValue low), rest)
  | 'u' :: '\x7b' :: rest => (Lexer.unicodeDigits rest 0 0).map fun (found, _, after) => (found, after)
  | c :: rest => some (simpleEscape c, rest)
  | [] => none

/-- The text of a string up to its closing quote, and what follows it; `fuel` is at least its length. -/
def unquote : Nat → Chars → Chars × Chars
  | 0, rest => ([], rest)
  | _ + 1, [] => ([], [])
  | fuel + 1, c :: rest =>
    if c = '"' then ([], rest)
    else if c = '\r' then
      let (taken, after) := unquote fuel (rest.drop 1)
      ('\n' :: taken, after)
    else if c = '\\' then
      match rest with
      | '\n' :: _ | '\r' :: _ => unquote fuel (rest.dropWhile fun b => [' ', '\t', '\n', '\r'].contains b)
      | _ =>
        match unescape rest with
        | some (found, after) =>
          let (taken, last) := unquote fuel after
          (found :: taken, last)
        | none => ([], [])
    else
      let (taken, after) := unquote fuel rest
      (c :: taken, after)

/-- The text of a raw string behind its `r`, and what follows it. -/
def unquoteRaw (chars : Chars) : Chars × Chars :=
  let hashes := (chars.takeWhile (· = '#')).length
  let close := '"' :: List.replicate hashes '#'
  let rec find : Chars → Chars × Chars
    | [] => ([], [])
    | c :: rest =>
      if close.isPrefixOf (c :: rest) then ([], (c :: rest).drop close.length)
      else let (taken, after) := find rest; (c :: taken, after)
  find (chars.drop (hashes + 1))

def ofText (found : Chars × Chars) : LiteralValue :=
  text (String.ofList found.1) (String.ofList found.2)

/-- The value of the digits of a base; underscores do not count, and the first other character ends it. -/
def digitsIn (base : Nat) (chars : Chars) : Nat :=
  let digits := (chars.filter (· ≠ '_')).takeWhile fun c => Lexer.isHex c && Lexer.hexValue c < base
  digits.foldl (fun value c => value * base + Lexer.hexValue c) 0

/-- Whether the digits of a decimal number go on with a point, or with an exponent that has digits. -/
def isFloating (chars : Chars) : Bool :=
  match chars.dropWhile fun c => Identifier.isAsciiDigit c || c = '_' with
  | '.' :: _ => true
  | c :: rest =>
    (c = 'e' || c = 'E') &&
      match rest.dropWhile (· = '_') with
      | d :: _ => Identifier.isAsciiDigit d || d = '-' || d = '+'
      | [] => false
  | [] => false

/-- The part of a floating-point literal before its suffix, without underscores. -/
def floatSpelling (chars : Chars) : Chars :=
  let rec go : Chars → (mark : Bool) → Chars
    | [], _ => []
    | c :: rest, mark =>
      if Identifier.isAsciiDigit c then c :: go rest mark
      else if c = '.' then c :: go rest mark
      else if c = '+' || c = '-' then c :: go rest mark
      else if (c = 'e' || c = 'E') && !mark &&
          (rest.head?.map fun d => Identifier.isAsciiDigit d || d = '-' || d = '+').getD false then
        c :: go rest true
      else []
  go (chars.filter (· ≠ '_')) false

def ofNumber (chars : Chars) : LiteralValue :=
  match chars with
  | '0' :: 'x' :: rest => integer (digitsIn 16 rest)
  | '0' :: 'o' :: rest => integer (digitsIn 8 rest)
  | '0' :: 'b' :: rest => integer (digitsIn 2 rest)
  | _ =>
    if isFloating chars then
      match BinaryFloat.decimal? (floatSpelling chars) with
      | some d => float d
      | none => other
    else integer (digitsIn 10 chars)

def inQuotes : Chars → Option Char
  | '\\' :: rest => (unescape rest).map (·.1)
  | c :: _ => some c
  | [] => none

def ofSpelling (spelling : String) : LiteralValue :=
  match spelling.toList with
  | '"' :: rest => ofText (unquote (rest.length + 1) rest)
  | 'r' :: rest => ofText (unquoteRaw rest)
  | '\'' :: rest => ((inQuotes rest).map char).getD other
  | 'b' :: '\'' :: rest => ((inQuotes rest).map fun c => byte c.toNat).getD other
  | c :: rest => if Identifier.isAsciiDigit c then ofNumber (c :: rest) else other
  | [] => other

/-! ### Numbers of fields -/

/-- The number of a field: an integer literal without suffix that fits 32 bits. -/
def fieldNumber? (spelling : String) : Option Nat :=
  let chars := spelling.toList
  let (base, digits) := Lexer.digitBase chars
  let isDigit (c : Char) : Bool := c = '_' || (Lexer.isHex c && Lexer.hexValue c < base)
  match chars with
  | c :: _ =>
    if Identifier.isAsciiDigit c && digits.all isDigit && digitsIn base digits < 4294967296 then
      some (digitsIn base digits)
    else none
  | [] => none

/--
The numbers of the fields behind a dot: several when they were lexed as one floating-point literal, as in
`pair.0.1`, with a dot at its end if the next field is named or lexed apart.
-/
def fieldNumbers? (spelling : String) : Option (List Nat × Bool) := do
  let parts := spelling.splitOn "."
  let dotted := 1 < parts.length && parts.getLast? == some ""
  let numbers ← (if dotted then parts.dropLast else parts).mapM fieldNumber?
  return (numbers, dotted)

end LiteralValue

end TestDouble
