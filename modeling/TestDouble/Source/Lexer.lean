import TestDouble.Source.Tree
import TestDouble.Text.Escape
import TestDouble.Text.Identifier
/-!
# From characters to token trees

`readTokens` cuts source text into tokens and drops blanks and comments; documentation comments stay,
as the attributes they stand for. `nest` then pairs the brackets. `readTrees` does both and fails
exactly when a lexeme is malformed or a bracket has no partner.

A scanner takes what it recognises off the front of the text: its result is the lexeme and the rest.
-/

namespace TestDouble.Lexer
open TestDouble.Text.Identifier

abbrev Chars := List Char

abbrev Scan := Option (Chars × Chars)

/-- Puts characters that were already taken in front of what a scanner takes. -/
def consumed (taken : Chars) (scan : Scan) : Scan :=
  scan.map fun (lexeme, rest) => (taken ++ lexeme, rest)

def startsWith : Chars → String → Bool
  | text, start => start.toList.isPrefixOf text

def isBlank (c : Char) : Bool :=
  c = ' ' || ('\t' ≤ c && c ≤ '\x0d') || c = '\x85' || c = '\u00a0' || c = '\u1680' ||
    ('\u2000' ≤ c && c ≤ '\u200a') || c = '\u200e' || c = '\u200f' || c = '\u2028' || c = '\u2029' ||
    c = '\u202f' || c = '\u205f' || c = '\u3000'

/-! ### Comments -/

/-- The text up to the end of the line, and what follows it. -/
def line : Chars → Chars × Chars
  | [] => ([], [])
  | '\n' :: rest => ([], '\n' :: rest)
  | '\r' :: '\n' :: rest => ([], '\n' :: rest)
  | c :: rest => let (taken, after) := line rest; (c :: taken, after)

/-- The rest of a block comment that is `depth` levels deep, up to its last closing mark. -/
def blockRest : Nat → Chars → Scan
  | _, [] => none
  | depth, '/' :: '*' :: rest => consumed ['/', '*'] (blockRest (depth + 1) rest)
  | 0, '*' :: '/' :: rest => some (['*', '/'], rest)
  | depth + 1, '*' :: '/' :: rest => consumed ['*', '/'] (blockRest depth rest)
  | depth, c :: rest => consumed [c] (blockRest depth rest)

def blockComment (text : Chars) : Scan :=
  match text with
  | '/' :: '*' :: rest => consumed ['/', '*'] (blockRest 0 rest)
  | _ => none

/-- The text without leading blanks and plain comments. The fuel bounds the number of steps. -/
def skipBlanks : Nat → Chars → Chars
  | 0, text => text
  | fuel + 1, text =>
    if startsWith text "//" && (!startsWith text "///" || startsWith text "////") &&
        !startsWith text "//!" then
      skipBlanks fuel (line text).2
    else if startsWith text "/**/" then skipBlanks fuel (text.drop 4)
    else if startsWith text "/*" && (!startsWith text "/**" || startsWith text "/***") &&
        !startsWith text "/*!" then
      match blockComment text with
      | some (_, rest) => skipBlanks fuel rest
      | none => text
    else
      match text with
      | c :: rest => if isBlank c then skipBlanks fuel rest else text
      | [] => []

def hasBareReturn : Chars → Bool
  | [] => false
  | '\r' :: '\n' :: rest => hasBareReturn rest
  | '\r' :: _ => true
  | _ :: rest => hasBareReturn rest

/-- A documentation comment: whether it documents what encloses it, its text, and the rest. -/
def docComment (text : Chars) : Option (Bool × Chars × Chars) := do
  let body (lexeme : Chars) : Chars := (lexeme.drop 3).take (lexeme.length - 5)
  let found ←
    if startsWith text "//!" then
      let (taken, rest) := line (text.drop 3)
      some (true, taken, rest)
    else if startsWith text "/*!" then
      (blockComment text).map fun (lexeme, rest) => (true, body lexeme, rest)
    else if startsWith text "///" then
      if startsWith text "////" then none
      else
        let (taken, rest) := line (text.drop 3)
        some (false, taken, rest)
    else if startsWith text "/**" && !startsWith text "/***" then
      (blockComment text).map fun (lexeme, rest) => (false, body lexeme, rest)
    else none
  if hasBareReturn found.2.1 then none else some found

def docTokens (inner : Bool) (text : Chars) : List Token :=
  [.punct "#" false] ++ (if inner then [.punct "!" false] else []) ++
    [.opening .bracket, .ident "doc", .punct "=" false,
      .literal (Text.stringLiteral (String.ofList text)), .closing .bracket]

/-! ### Identifiers -/

/-- An identifier that is not raw, keywords included. -/
def plainIdent : Chars → Scan
  | [] => none
  | c :: rest =>
    if isStart c then some (c :: rest.takeWhile isContinue, rest.dropWhile isContinue) else none

/-- The names that have no raw form. -/
def neverRaw : List String := ["_", "super", "self", "Self", "crate"]

/-- An identifier, raw or not. -/
def anyIdent (text : Chars) : Scan :=
  match text with
  | 'r' :: '#' :: rest =>
    match plainIdent rest with
    | some (name, after) =>
      if neverRaw.contains (String.ofList name) then none else some ('r' :: '#' :: name, after)
    | none => none
  | _ => plainIdent text

/-- Beginnings that look like an identifier but are those of a literal. -/
def literalStarts : List String :=
  ["r\"", "r#\"", "r##", "b\"", "b'", "br\"", "br#", "c\"", "cr\"", "cr#"]

def ident (text : Chars) : Scan :=
  if literalStarts.any (startsWith text) then none else anyIdent text

/-- An identifier right behind a literal belongs to it. -/
def withSuffix : Scan → Scan
  | some (lexeme, rest) =>
    match plainIdent rest with
    | some (suffix, after) => some (lexeme ++ suffix, after)
    | none => some (lexeme, rest)
  | none => none

/-! ### Strings and characters -/

/-- The three families of quoted literals, which differ in the escapes they admit. -/
inductive Family where
  | text
  | bytes
  | terminated
  deriving DecidableEq

def isHex (c : Char) : Bool :=
  isAsciiDigit c || ('a' ≤ c && c ≤ 'f') || ('A' ≤ c && c ≤ 'F')

def hexValue (c : Char) : Nat :=
  if isAsciiDigit c then c.toNat - 48 else if 'a' ≤ c then c.toNat - 87 else c.toNat - 55

/-- The digits of `\u` behind the opening brace: at most six, underscores between them, a character. -/
def unicodeDigits : Chars → (digits value : Nat) → Option (Char × Chars × Chars)
  | [], _, _ => none
  | c :: rest, digits, value =>
    if c = '\x7d' then
      if h : 0 < digits ∧ value.isValidChar then some (Char.ofNatAux value h.2, [c], rest) else none
    else if c = '_' then
      if 0 < digits then
        (unicodeDigits rest digits value).map fun (char, taken, after) => (char, c :: taken, after)
      else none
    else if isHex c && digits < 6 then
      (unicodeDigits rest (digits + 1) (value * 16 + hexValue c)).map
        fun (char, taken, after) => (char, c :: taken, after)
    else none

/-- What may follow a backslash, the line break apart. -/
def escapeTail (family : Family) : Chars → Scan
  | 'x' :: high :: low :: rest =>
    if isHex high && isHex low &&
        (match family with
          | .text => '0' ≤ high && high ≤ '7'
          | .bytes => true
          | .terminated => !(high = '0' && low = '0')) then
      some (['x', high, low], rest)
    else none
  | 'u' :: '\x7b' :: rest =>
    if family = .bytes then none
    else
      match unicodeDigits rest 0 0 with
      | some (char, taken, after) =>
        if family = .terminated && char = '\x00' then none else some ('u' :: '\x7b' :: taken, after)
      | none => none
  | '0' :: rest => if family = .terminated then none else some (['0'], rest)
  | c :: rest => if ['n', 'r', 't', '\\', '\'', '"'].contains c then some ([c], rest) else none
  | [] => none

/-- The blanks behind a backslash at the end of a line; a return must be followed by a line feed. -/
def continuation : Chars → Scan
  | [] => none
  | '\r' :: '\n' :: rest => consumed ['\r', '\n'] (continuation rest)
  | '\r' :: _ => none
  | c :: rest =>
    if c = ' ' || c = '\t' || c = '\n' then consumed [c] (continuation rest) else some ([], c :: rest)

/-- A quoted literal behind its opening quote, up to and including the closing one. -/
def quotedRest (family : Family) : Nat → Chars → Scan
  | 0, _ => none
  | _ + 1, [] => none
  | fuel + 1, c :: rest =>
    if c = '"' then some ([c], rest)
    else if c = '\r' then
      match rest with
      | '\n' :: after => consumed ['\r', '\n'] (quotedRest family fuel after)
      | _ => none
    else if c = '\\' then
      match rest with
      | '\n' :: _ | '\r' :: _ =>
        match continuation rest with
        | some (taken, after) => consumed (c :: taken) (quotedRest family fuel after)
        | none => none
      | _ =>
        match escapeTail family rest with
        | some (taken, after) => consumed (c :: taken) (quotedRest family fuel after)
        | none => none
    else if family = .bytes && 127 < c.toNat then none
    else if family = .terminated && c = '\x00' then none
    else consumed [c] (quotedRest family fuel rest)

/-- The content of a raw literal with the given number of hashes, its closing marks included. -/
def rawRest (family : Family) (hashes : Nat) : Chars → Scan
  | [] => none
  | '"' :: rest =>
    if (List.replicate hashes '#').isPrefixOf rest then
      some ('"' :: List.replicate hashes '#', rest.drop hashes)
    else consumed ['"'] (rawRest family hashes rest)
  | '\r' :: '\n' :: rest => consumed ['\r', '\n'] (rawRest family hashes rest)
  | '\r' :: _ => none
  | c :: rest =>
    if family = .bytes && 127 < c.toNat then none
    else if family = .terminated && c = '\x00' then none
    else consumed [c] (rawRest family hashes rest)

/-- A raw literal behind its `r`. -/
def raw (family : Family) (text : Chars) : Scan :=
  let hashes := (text.takeWhile (· = '#')).length
  match text.drop hashes with
  | '"' :: rest =>
    if hashes ≤ 255 then consumed (List.replicate hashes '#' ++ ['"']) (rawRest family hashes rest)
    else none
  | _ => none

/-- A literal in double quotes, plain or raw, behind the letters that name its family. -/
def quoted (family : Family) (text : Chars) : Scan :=
  match text with
  | '"' :: rest => withSuffix (consumed ['"'] (quotedRest family (rest.length + 1) rest))
  | 'r' :: rest => withSuffix (consumed ['r'] (raw family rest))
  | _ => none

def quotedChar (family : Family) (text : Chars) : Scan :=
  match text with
  | '\'' :: '\\' :: rest =>
    match escapeTail family rest with
    | some (taken, '\'' :: after) => withSuffix (some ('\'' :: '\\' :: taken ++ ['\''], after))
    | _ => none
  | '\'' :: c :: '\'' :: after =>
    if family = .bytes && 127 < c.toNat then none else withSuffix (some (['\'', c, '\''], after))
  | _ => none

/-! ### Numbers -/

/-- A number may not run into further identifier characters. -/
def wordBreak : Scan → Scan
  | some (lexeme, c :: rest) => if isContinue c then none else some (lexeme, c :: rest)
  | scan => scan

/-- Digits and at most one point, up to an exponent mark: `(lexeme, has a point, has a mark, rest)`. -/
def floatDigits : Chars → (dot : Bool) → Option (Chars × Bool × Bool × Chars)
  | [], dot => some ([], dot, false, [])
  | c :: rest, dot =>
    if isAsciiDigit c || c = '_' then
      (floatDigits rest dot).map fun (taken, found) => (c :: taken, found)
    else if c = '.' then
      if dot then some ([], dot, false, c :: rest)
      else
        match rest with
        | next :: _ =>
          if next = '.' || isStart next then none
          else (floatDigits rest true).map fun (taken, found) => (c :: taken, found)
        | [] => some ([c], true, false, [])
    else if c = 'e' || c = 'E' then some ([c], dot, true, rest)
    else some ([], dot, false, c :: rest)

/-- The digits of an exponent; `none` for a second sign before any digit. -/
def exponent : Chars → (sign value : Bool) → Option (Chars × Bool × Chars)
  | [], _, value => some ([], value, [])
  | c :: rest, sign, value =>
    if c = '+' || c = '-' then
      if value then some ([], value, c :: rest)
      else if sign then none
      else (exponent rest true value).map fun (taken, found) => (c :: taken, found)
    else if isAsciiDigit c then
      (exponent rest sign true).map fun (taken, found) => (c :: taken, found)
    else if c = '_' then (exponent rest sign value).map fun (taken, found) => (c :: taken, found)
    else some ([], value, c :: rest)

def floatBody (text : Chars) : Scan :=
  match text with
  | [] => none
  | first :: _ =>
    if !isAsciiDigit first then none
    else
      match floatDigits text false with
      | some (taken, dot, true, rest) =>
        -- without a proper exponent the number ends before the mark
        let before : Scan :=
          if dot then some (taken.dropLast, text.drop (taken.length - 1)) else none
        match exponent rest false false with
        | some (digits, true, after) => some (taken ++ digits, after)
        | _ => before
      | some (taken, true, false, rest) => some (taken, rest)
      | _ => none

def digitBase (text : Chars) : Nat × Chars :=
  match text with
  | '0' :: 'x' :: rest => (16, rest)
  | '0' :: 'o' :: rest => (8, rest)
  | '0' :: 'b' :: rest => (2, rest)
  | _ => (10, text)

/-- The digits of an integer; a decimal digit outside the base is an error, a letter ends the number. -/
def intDigits (base : Nat) : Chars → (empty : Bool) → Scan
  | [], empty => if empty then none else some ([], [])
  | c :: rest, empty =>
    if isAsciiDigit c then
      if c.toNat - 48 < base then consumed [c] (intDigits base rest false) else none
    else if c = '_' then
      if empty && base = 10 then none else consumed [c] (intDigits base rest empty)
    else if isHex c && hexValue c < base then consumed [c] (intDigits base rest false)
    else if empty then none
    else some ([], c :: rest)

def intBody (text : Chars) : Scan :=
  let (base, rest) := digitBase text
  consumed (if base = 10 then [] else text.take 2) (intDigits base rest true)

def number (text : Chars) : Scan :=
  match wordBreak (withSuffix (floatBody text)) with
  | some found => some found
  | none => wordBreak (withSuffix (intBody text))

/-! ### Tokens -/

def literal (text : Chars) : Scan :=
  match text with
  | '"' :: _ => quoted .text text
  | 'r' :: _ => quoted .text text
  | 'b' :: '\'' :: rest => consumed ['b'] (quotedChar .bytes ('\'' :: rest))
  | 'b' :: rest => consumed ['b'] (quoted .bytes rest)
  | 'c' :: rest => consumed ['c'] (quoted .terminated rest)
  | '\'' :: _ => quotedChar .text text
  | _ => number text

def punctuation : List Char := "~!@#$%^&*-=+|;:,<.>/?'".toList

/-- A punctuation character; the slash of a comment is none. -/
def punctChar (text : Chars) : Option (Char × Chars) :=
  if startsWith text "//" || startsWith text "/*" then none
  else
    match text with
    | c :: rest => if punctuation.contains c then some (c, rest) else none
    | [] => none

/-- Punctuation, or the lifetime that an apostrophe begins. -/
def punct (text : Chars) : Option (Token × Chars) :=
  match punctChar text with
  | some ('\'', rest) =>
    match anyIdent rest with
    | some (name, after) =>
      if startsWith after "'" || (startsWith after "#" && !startsWith rest "r#") then none
      else some (.lifetime (String.ofList ('\'' :: name)), after)
    | none => none
  | some (c, rest) => some (.punct (String.singleton c) (punctChar rest).isSome, rest)
  | none => none

/-- One token that is neither a bracket nor a comment. -/
def leaf (text : Chars) : Option (Token × Chars) :=
  match literal text with
  | some (lexeme, rest) => some (.literal (String.ofList lexeme), rest)
  | none =>
    match punct text with
    | some found => some found
    | none => (ident text).map fun (name, rest) => (.ident (String.ofList name), rest)

/-- The tokens of a text, the last one first; `fuel` bounds their number. -/
def scanTokens : (fuel : Nat) → Chars → List Token → Option (List Token)
  | 0, _, _ => none
  | fuel + 1, text, found =>
    match skipBlanks (text.length + 1) text with
    | [] => some found
    | c :: rest =>
      match docComment (c :: rest) with
      | some (inner, body, after) => scanTokens fuel after ((docTokens inner body).reverse ++ found)
      | none =>
        match Delimiter.ofOpening? c with
        | some d => scanTokens fuel rest (.opening d :: found)
        | none =>
          match Delimiter.ofClosing? c with
          | some d => scanTokens fuel rest (.closing d :: found)
          | none =>
            match leaf (c :: rest) with
            | some (token, after) => scanTokens fuel after (token :: found)
            | none => none

/-- The tokens of a text; a byte order mark in front is dropped. -/
def readTokens (text : String) : Option (List Token) :=
  let chars := match text.toList with
    | '\ufeff' :: rest => rest
    | all => all
  (scanTokens (chars.length + 1) chars []).map List.reverse

/-- Pairs the brackets; `outer` holds the groups around the current one and `done` its trees so far, last first. -/
def nest : List Token → (outer : List (Delimiter × List Tree)) → (done : List Tree) →
    Option (List Tree)
  | [], [], done => some done.reverse
  | [], _ :: _, _ => none
  | .opening d :: rest, outer, done => nest rest ((d, done) :: outer) []
  | .closing d :: rest, (expected, before) :: outer, done =>
    if d = expected then nest rest outer (.group d done.reverse :: before) else none
  | .closing _ :: _, [], _ => none
  | token :: rest, outer, done => nest rest outer (.token token :: done)

def readTrees (text : String) : Option (List Tree) :=
  (readTokens text).bind fun tokens => nest tokens [] []

end TestDouble.Lexer
