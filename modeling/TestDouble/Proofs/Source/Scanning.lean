import TestDouble.Proofs.Source.Fitting
import TestDouble.Source.Lexer
/-!
# What scanning finds

Every identifier that is cut out of a text is a name, raw or not, and punctuation is one character. The other
tokens keep their spelling, whatever it is.
-/

namespace TestDouble.Lexer
open TestDouble.Text

theorem isSpelling_of_plainIdent {text name rest : Chars} (found : plainIdent text = some (name, rest)) :
    Identifier.isSpelling name = true := by
  cases text with
  | nil => cases found
  | cons c more =>
      rw [plainIdent] at found
      split at found
      · rename_i start
        cases found
        simp only [Identifier.isSpelling, start, Bool.true_and]
        exact List.all_takeWhile
      · cases found

/-- The mark of a raw name is no part of a name that is not raw. -/
theorem isRaw_of_isSpelling {name : Chars} (spelled : Identifier.isSpelling name = true) :
    Name.isRaw (String.ofList name) = false := by
  have noContinue : Identifier.isContinue '#' = false := by decide
  cases name with
  | nil => cases spelled
  | cons first rest =>
      cases rest with
      | nil => simp [Name.isRaw, List.isPrefixOf]
      | cons second more =>
          have continues : Identifier.isContinue second = true := by
            simp only [Identifier.isSpelling, List.all_cons, Bool.and_eq_true] at spelled
            exact spelled.2.1
          have differs : second ≠ '#' := by
            rintro rfl
            rw [noContinue] at continues
            cases continues
          simp [Name.isRaw, List.isPrefixOf, Ne.symm differs]

theorem isValid_of_isSpelling {name : Chars} (spelled : Identifier.isSpelling name = true) :
    Name.isValid (String.ofList name) = true := by
  simp [Name.isValid, Name.unraw, isRaw_of_isSpelling spelled, spelled]

theorem isValid_of_anyIdent {text name rest : Chars} (found : anyIdent text = some (name, rest)) :
    Name.isValid (String.ofList name) = true := by
  unfold anyIdent at found
  split at found
  · split at found
    · rename_i plain after read
      split at found
      · cases found
      · rename_i free
        cases found
        have spelled := isSpelling_of_plainIdent read
        have raw : Name.isRaw (String.ofList ('r' :: '#' :: plain)) = true := by simp [Name.isRaw, List.isPrefixOf]
        simp_all [Name.isValid, Name.unraw]
    · cases found
  · exact isValid_of_isSpelling (isSpelling_of_plainIdent found)

/-- Punctuation is cut out one character at a time. -/
theorem sound_of_punct {text rest : Chars} {token : Token} (found : punct text = some (token, rest)) :
    (Tree.token token).sound = true := by
  unfold punct at found
  split at found
  · split at found
    · split at found
      · cases found
      · cases found
        rfl
    · cases found
  · rename_i c _ _ _
    cases found
    have apart : String.singleton c ≠ "::" := fun same => by
      have lengths : 1 = "::".length := by simpa using congrArg String.length same
      exact absurd lengths (by decide)
    simp [Tree.sound, Tree.isColons, Tree.isPunct, Token.wellFormed, apart]
  · cases found

theorem sound_of_leaf {text rest : Chars} {token : Token} (found : leaf text = some (token, rest)) :
    (Tree.token token).sound = true := by
  unfold leaf at found
  split at found
  · cases found
    rfl
  · split at found
    · rename_i read
      cases found
      exact sound_of_punct read
    · rw [Option.map_eq_some_iff] at found
      obtain ⟨⟨name, after⟩, read, same⟩ := found
      cases same
      unfold ident at read
      split at read
      · cases read
      · exact Bool.and_eq_true_iff.mpr ⟨isValid_of_anyIdent read, rfl⟩

theorem sound_docTokens {inner : Bool} {text : Chars} :
    ∀ token ∈ docTokens inner text, (Tree.token token).sound = true := by
  intro token member
  cases inner <;> simp [docTokens] at member <;> rcases member with rfl | rfl | rfl | rfl | rfl | rfl | rfl <;>
    rfl

theorem sound_scanTokens {fuel : Nat} {text : Chars} {found tokens : List Token}
    (scanned : scanTokens fuel text found = some tokens) (before : ∀ token ∈ found, (Tree.token token).sound = true) :
    ∀ token ∈ tokens, (Tree.token token).sound = true := by
  fun_induction scanTokens fuel text found with
  | case1 => cases scanned
  | case2 =>
      cases scanned
      exact before
  | case3 fuel text found c rest blank inner body after comment ih =>
      refine ih scanned fun token member => ?_
      rcases List.mem_append.mp member with new | old
      · exact sound_docTokens token (List.mem_reverse.mp new)
      · exact before token old
  | case4 fuel text found c rest blank comment d opening ih =>
      exact ih scanned (List.forall_mem_cons.mpr ⟨rfl, before⟩)
  | case5 fuel text found c rest blank comment noOpening d closing ih =>
      exact ih scanned (List.forall_mem_cons.mpr ⟨rfl, before⟩)
  | case6 fuel text found c rest blank comment noOpening noClosing token after read ih =>
      exact ih scanned (List.forall_mem_cons.mpr ⟨sound_of_leaf read, before⟩)
  | case7 => cases scanned

theorem raw_nest {tokens : List Token} {outer : List (Delimiter × List Tree)} {done trees : List Tree}
    (nested : nest tokens outer done = some trees) (formed : ∀ token ∈ tokens, (Tree.token token).sound = true)
    (around : ∀ level ∈ outer, Tree.Raw level.2) (before : Tree.Raw done) : Tree.Raw trees := by
  fun_induction nest tokens outer done with
  | case1 =>
      cases nested
      simpa using before
  | case2 => cases nested
  | case3 d rest outer done ih =>
      exact ih nested (List.forall_mem_cons.mp formed).2 (List.forall_mem_cons.mpr ⟨before, around⟩) Tree.raw_nil
  | case4 rest d above outer done ih =>
      have levels := List.forall_mem_cons.mp around
      refine ih nested (List.forall_mem_cons.mp formed).2 levels.2 ?_
      exact Tree.raw_cons.mpr ⟨Tree.raw_group.mpr (Tree.raw_reverse.mpr before), levels.1⟩
  | case5 => cases nested
  | case6 => cases nested
  | case7 token rest outer done noOpening noClosing noLevel ih =>
      have parts := List.forall_mem_cons.mp formed
      refine ih nested parts.2 around ?_
      simpa using ⟨parts.1, before⟩

theorem raw_readTrees {text : String} {trees : List Tree} (read : readTrees text = some trees) : Tree.Raw trees := by
  unfold readTrees at read
  obtain ⟨tokens, found, nested⟩ := Option.bind_eq_some_iff.mp read
  unfold readTokens at found
  obtain ⟨scanned, taken, rfl⟩ := Option.map_eq_some_iff.mp found
  have formed := sound_scanTokens taken (by simp)
  exact raw_nest nested (by simpa using formed) (by simp) Tree.raw_nil

end TestDouble.Lexer
