import TestDouble.Text.CharClass
/-!
# Characters of identifiers

An identifier is a starting character (`XID_Start` or an underscore) followed by continuing
characters (`XID_Continue`). ASCII is decided directly, everything above it by the tables.
-/

namespace TestDouble.Text.Identifier

def isAsciiLetter (c : Char) : Bool :=
  ('a' ≤ c && c ≤ 'z') || ('A' ≤ c && c ≤ 'Z')

def isAsciiDigit (c : Char) : Bool :=
  '0' ≤ c && c ≤ '9'

def isStart (c : Char) : Bool :=
  isAsciiLetter c || c = '_' || (127 < c.toNat && CharClass.within CharClass.starting c.toNat)

/-- A character that may follow the first one of an identifier. -/
def isContinue (c : Char) : Bool :=
  isStart c || isAsciiDigit c || (127 < c.toNat && CharClass.within CharClass.continuing c.toNat)

/-- Whether the characters spell an identifier, keywords and the lone underscore included. -/
def isSpelling : List Char → Bool
  | [] => false
  | c :: rest => isStart c && rest.all isContinue

theorem isContinue_of_isStart {c : Char} (start : isStart c = true) : isContinue c = true := by
  simp [isContinue, start]

/-- Two spellings joined by an underscore are again a spelling. -/
theorem isSpelling_join {left right : List Char} (hl : isSpelling left = true)
    (hr : isSpelling right = true) : isSpelling (left ++ '_' :: right) = true := by
  cases left with
  | nil => simp [isSpelling] at hl
  | cons c rest =>
    cases right with
    | nil => simp [isSpelling] at hr
    | cons d tail =>
      simp only [isSpelling, Bool.and_eq_true, List.all_eq_true] at hl hr
      simp only [List.cons_append, isSpelling, Bool.and_eq_true, List.all_append, List.all_cons,
        List.all_eq_true]
      exact ⟨hl.1, hl.2, by decide, isContinue_of_isStart hr.1, hr.2⟩

end TestDouble.Text.Identifier
