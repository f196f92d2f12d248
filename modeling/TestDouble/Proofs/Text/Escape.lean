import Mathlib
import TestDouble.Source.Literal
/-!
# Literals of text read back

The literal that is written for a string or a character stands for this string and this character, whatever they
are made of. Every character is written as itself or as one escape, and an escape ends where it ends by its own
form: what follows it never matters.
-/

namespace TestDouble

theorem LiteralValue.toNat_lt (c : Char) : c.toNat < 1114112 := by
  have valid : c.toNat.isValidChar := c.valid
  rcases valid with low | high
  · exact Nat.lt_trans low (by decide)
  · exact high.2

namespace Lexer

theorem hexValue_digitChar : ∀ digit < 16, hexValue digit.digitChar = digit := by decide

theorem isHex_digitChar : ∀ digit < 16, isHex digit.digitChar = true := by decide

theorem digitChar_ne_mark : ∀ digit < 16, digit.digitChar ≠ '\x7d' ∧ digit.digitChar ≠ '_' := by decide

variable {tail after : Chars} {found : Char}

theorem unicodeDigits_digit {digit count : Nat} (valid : digit < 16) (few : count < 6) (value : Nat) :
    unicodeDigits (digit.digitChar :: tail) count value =
      (unicodeDigits tail (count + 1) (value * 16 + digit)).map fun (char, taken, after) =>
        (char, digit.digitChar :: taken, after) := by
  obtain ⟨noBrace, noUnderscore⟩ := digitChar_ne_mark digit valid
  rw [unicodeDigits, if_neg noBrace, if_neg noUnderscore, isHex_digitChar digit valid, decide_eq_true few,
    hexValue_digitChar digit valid]
  rfl

theorem unicodeDigits_toDigits (number : Nat) (short : (Nat.toDigits 16 number).length ≤ 6)
    (read : ∃ taken, unicodeDigits tail (Nat.toDigits 16 number).length number = some (found, taken, after)) :
    ∃ taken, unicodeDigits (Nat.toDigits 16 number ++ tail) 0 0 = some (found, taken, after) := by
  -- The last digit goes to what is read behind the others, so the induction is on the number.
  induction number using Nat.strongRecOn generalizing tail with
  | ind number earlier =>
    obtain ⟨taken, read⟩ := read
    by_cases single : number < 16
    · rw [Nat.toDigits_of_lt_base single, List.length_singleton] at read
      have whole : 0 * 16 + number = number := by omega
      rw [Nat.toDigits_of_lt_base single, List.singleton_append, unicodeDigits_digit single (by decide), whole,
        read]
      exact ⟨number.digitChar :: taken, rfl⟩
    · have whole : number / 16 * 16 + number % 16 = number := by omega
      have last : number % 16 < 16 := Nat.mod_lt number (by decide)
      rw [Nat.toDigits_of_base_le (by decide) (by omega)] at short read ⊢
      rw [List.length_append, List.length_singleton] at short read
      rw [List.append_assoc, List.singleton_append]
      apply earlier (number / 16) (by omega) (by omega)
      rw [unicodeDigits_digit last (by omega), whole, read]
      exact ⟨(number % 16).digitChar :: taken, rfl⟩

theorem unicodeDigits_char (c : Char) (rest : Chars) :
    ∃ taken, unicodeDigits (Nat.toDigits 16 c.toNat ++ '\x7d' :: rest) 0 0 = some (c, taken, rest) := by
  have below : c.toNat < 16 ^ 6 := Nat.lt_trans (LiteralValue.toNat_lt c) (by decide)
  apply unicodeDigits_toDigits c.toNat ((Nat.length_toDigits_le_iff (by decide) (by decide)).mpr below)
  have closed : 0 < (Nat.toDigits 16 c.toNat).length ∧ c.toNat.isValidChar := ⟨Nat.length_toDigits_pos, c.valid⟩
  refine ⟨['\x7d'], ?_⟩
  rw [unicodeDigits, if_pos rfl, dif_pos closed]
  rfl

end Lexer

namespace LiteralValue
open Lexer (Chars)
open TestDouble.Text

/-- What is written behind the backslash of an escape that stands for a character. -/
inductive EscapeOf : Char → Chars → Prop where
  | letter {letter : Char} (plain : letter ∉ ['x', 'u', '\n', '\r']) : EscapeOf (simpleEscape letter) [letter]
  | zero : EscapeOf '\x00' ['x', '0', '0']
  | codePoint (c : Char) : EscapeOf c ('u' :: '\x7b' :: (Nat.toDigits 16 c.toNat ++ ['\x7d']))

/-- A character between quotes is written as itself, if it has no meaning there, or as an escape. -/
inductive Written (quote : Char) : Char → Chars → Prop where
  | itself {c : Char} (plain : c ∉ [quote, '\\', '\r']) : Written quote c [c]
  | escape {c : Char} {tail : Chars} (stands : EscapeOf c tail) : Written quote c ('\\' :: tail)

variable {c quote : Char} {tail piece : Chars}

theorem EscapeOf.unescape (stands : EscapeOf c tail) (rest : Chars) :
    LiteralValue.unescape (tail ++ rest) = some (c, rest) := by
  cases stands with
  | @letter letter plain =>
    simp only [List.mem_cons, List.not_mem_nil, or_false, not_or] at plain
    obtain ⟨noHex, noUnicode, -, -⟩ := plain
    rw [List.singleton_append]
    unfold LiteralValue.unescape
    split
    case h_1 same => exact absurd (List.cons.inj same).1 noHex
    case h_2 same => exact absurd (List.cons.inj same).1 noUnicode
    case h_3 same => obtain ⟨rfl, rfl⟩ := List.cons.inj same; rfl
    case h_4 same => cases same
  | zero => rfl
  | codePoint =>
    obtain ⟨taken, read⟩ := Lexer.unicodeDigits_char c rest
    have joined : 'u' :: '\x7b' :: (Nat.toDigits 16 c.toNat ++ ['\x7d']) ++ rest =
        'u' :: '\x7b' :: (Nat.toDigits 16 c.toNat ++ '\x7d' :: rest) := by
      simp only [List.cons_append, List.append_assoc, List.nil_append]
    rw [joined, LiteralValue.unescape, read]
    rfl

/-- No escape begins like a backslash at the end of a line. -/
theorem EscapeOf.begins (stands : EscapeOf c tail) :
    ∃ first rest, tail = first :: rest ∧ first ≠ '\n' ∧ first ≠ '\r' := by
  cases stands with
  | @letter letter plain =>
    simp only [List.mem_cons, List.not_mem_nil, or_false, not_or] at plain
    obtain ⟨-, -, noLine, noReturn⟩ := plain
    exact ⟨letter, [], rfl, noLine, noReturn⟩
  | zero => exact ⟨'x', _, rfl, by decide, by decide⟩
  | codePoint => exact ⟨'u', _, rfl, by decide, by decide⟩

theorem Written.inQuotes (written : Written quote c piece) (rest : Chars) :
    LiteralValue.inQuotes (piece ++ rest) = some c := by
  cases written with
  | itself plain =>
    have noBackslash : c ≠ '\\' := by
      rintro rfl
      exact plain (by simp)
    rw [List.singleton_append]
    unfold LiteralValue.inQuotes
    split
    case h_1 same => exact absurd (List.cons.inj same).1 noBackslash
    case h_2 same => obtain ⟨rfl, rfl⟩ := List.cons.inj same; rfl
    case h_3 same => cases same
  | escape stands => rw [List.cons_append, LiteralValue.inQuotes, stands.unescape rest]; rfl

theorem Written.unquote (written : Written '"' c piece) (fuel : Nat) (rest : Chars) :
    LiteralValue.unquote (fuel + 1) (piece ++ rest) =
      (c :: (LiteralValue.unquote fuel rest).1, (LiteralValue.unquote fuel rest).2) := by
  cases written with
  | itself plain =>
    simp only [List.mem_cons, List.not_mem_nil, or_false, not_or] at plain
    obtain ⟨noQuote, noBackslash, noReturn⟩ := plain
    rw [List.singleton_append]
    conv_lhs => unfold LiteralValue.unquote
    rw [if_neg noQuote, if_neg noReturn, if_neg noBackslash]
  | escape stands =>
    obtain ⟨first, more, rfl, noLine, noReturn⟩ := stands.begins
    rw [List.cons_append]
    conv_lhs => unfold LiteralValue.unquote
    rw [if_neg (by decide), if_neg (by decide), if_pos rfl]
    split
    case h_1 same => exact absurd (List.cons.inj same).1 noLine
    case h_2 same => exact absurd (List.cons.inj same).1 noReturn
    case h_3 => rw [stands.unescape rest]

theorem Written.length_pos (written : Written quote c piece) : 0 < piece.length := by
  cases written <;> exact Nat.zero_lt_succ _

theorem written_escape {quotes : Quotes} (ends : quote = '"' ∧ quotes.double = true ∨
    quote = '\'' ∧ quotes.single = true) (c : Char) : Written quote c (escape quotes c) := by
  have short (letter : Char) (plain : letter ∉ ['x', 'u', '\n', '\r']) :
      Written quote (simpleEscape letter) ['\\', letter] := .escape (.letter plain)
  have spelled : Written quote c (codePoint c) := .escape (.codePoint c)
  -- Each kind of quotes is escaped where it would end the literal, and stands bare in the other.
  unfold escape
  split_ifs with nul tab ret line backslash single bare double bare extending printable
  · rw [nul]; exact short '0' (by decide)
  · rw [tab]; exact short 't' (by decide)
  · rw [ret]; exact short 'r' (by decide)
  · rw [line]; exact short 'n' (by decide)
  · rw [backslash]; exact short '\\' (by decide)
  · rw [single]; exact short '\'' (by decide)
  · rw [single]
    obtain ⟨rfl, -⟩ | ⟨-, escaped⟩ := ends
    · exact .itself (by decide)
    · exact absurd escaped bare
  · rw [double]; exact short '"' (by decide)
  · rw [double]
    obtain ⟨-, escaped⟩ | ⟨rfl, -⟩ := ends
    · exact absurd escaped bare
    · exact .itself (by decide)
  · exact spelled
  · refine .itself ?_
    simp only [List.mem_cons, List.not_mem_nil, or_false, not_or]
    refine ⟨?_, backslash, ret⟩
    obtain ⟨rfl, -⟩ | ⟨rfl, -⟩ := ends
    · exact double
    · exact single
  · exact spelled

/-- A literal is written character by character; only a NUL looks at the character behind it. -/
theorem literalBody_cons (c : Char) (rest : List Char) :
    ∃ piece, Written '"' c piece ∧ literalBody (c :: rest) = piece ++ literalBody rest := by
  refine ⟨_, ?_, rfl⟩
  split
  case h_1 d _ =>
    by_cases octal : ('0' ≤ d && d ≤ '7') = true
    · rw [if_pos octal]
      exact .escape .zero
    · rw [if_neg octal]
      exact .escape (@EscapeOf.letter '0' (by decide))
  case h_2 => exact written_escape (.inl ⟨rfl, rfl⟩) c

theorem unquote_literalBody (chars rest : List Char) {fuel : Nat} (enough : (literalBody chars).length < fuel) :
    unquote fuel (literalBody chars ++ '"' :: rest) = (chars, rest) := by
  induction chars generalizing fuel with
  | nil =>
    obtain ⟨fuel, rfl⟩ : ∃ less, fuel = less + 1 := Nat.exists_eq_add_one.mpr enough
    rfl
  | cons c chars remaining =>
    obtain ⟨piece, written, same⟩ := literalBody_cons c chars
    have some := written.length_pos
    rw [same, List.length_append] at enough
    obtain ⟨fuel, rfl⟩ : ∃ less, fuel = less + 1 := Nat.exists_eq_add_one.mpr (by omega)
    rw [same, List.append_assoc, written.unquote, remaining (by omega)]

theorem ofSpelling_stringLiteral (value : String) : ofSpelling (stringLiteral value) = text value "" := by
  have enough : (literalBody value.toList).length < (literalBody value.toList ++ ['"']).length + 1 := by
    rw [List.length_append]
    omega
  rw [ofSpelling, stringLiteral, String.toList_ofList, List.cons_append]
  show ofText (unquote _ (literalBody value.toList ++ ['"'])) = _
  rw [unquote_literalBody value.toList [] enough, ofText, String.ofList_toList, String.ofList_nil]

theorem ofSpelling_quotedChar (c : Char) : ofSpelling (quotedChar c) = char c := by
  have written : Written '\'' c (escape inCharacter c) := written_escape (.inr ⟨rfl, rfl⟩) c
  rw [ofSpelling, quotedChar, String.toList_ofList, List.cons_append]
  show ((inQuotes (escape inCharacter c ++ ['\''])).map char).getD other = _
  rw [written.inQuotes]
  rfl

end LiteralValue

end TestDouble
