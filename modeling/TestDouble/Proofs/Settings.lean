import TestDouble.Proofs.Name
import TestDouble.Proofs.Site.Callee
import TestDouble.Proofs.Source.Reads
import TestDouble.Proofs.Source.Scanning
import TestDouble.Settings
/-!
# The names of settings

An annotation can only give names that can be declared: identifiers, raw or not, that are no words of the language.
So no settings that were read look for such a word.
-/

open Std.Do

set_option mvcgen.warning false

namespace TestDouble.Settings
open Parse

/-- That settings look for two names which are no words of the language. -/
structure Named (settings : Settings) : Prop where
  dispatcher : settings.dispatcher ∉ keywords
  returns : settings.returns ∉ keywords

theorem Named.default : Named {} := ⟨by decide, by decide⟩

theorem Named.apart {settings : Settings} (named : Named settings) : settings.Apart := by
  have other : ∀ word, word ∈ keywords → settings.owns word = false := by
    intro word isWord
    rw [owns, Bool.or_eq_false_iff, beq_eq_false_iff_ne, beq_eq_false_iff_ne]
    constructor
    · rintro rfl
      exact named.dispatcher isWord
    · rintro rfl
      exact named.returns isWord
  exact ⟨other _ (by decide), other _ (by decide), other _ (by decide), other _ (by decide)⟩

/-- That both names can stand for declarations. -/
structure Declarable (settings : Settings) : Prop where
  dispatcher : Name.isDeclarable settings.dispatcher = true
  returns : Name.isDeclarable settings.returns = true

theorem Declarable.default : Declarable {} := ⟨by decide, by decide⟩

theorem Declarable.named {settings : Settings} (declarable : Declarable settings) : Named settings :=
  ⟨Name.not_keyword_of_isDeclarable declarable.dispatcher, Name.not_keyword_of_isDeclarable declarable.returns⟩

/-- A string without a suffix whose text is one identifier that is no keyword. -/
def Names (spelling name : String) : Prop :=
  ∃ value, LiteralValue.ofSpelling spelling = .text value "" ∧
    Lexer.readTrees value = some [Tree.ident name] ∧ name ∉ keywords

theorem names_of_identifierIn {spelling name : String} (found : identifierIn? spelling = some name) :
    Names spelling name := by
  unfold identifierIn? at found
  split at found
  · rename_i value spelled
    split at found
    · rename_i tree read
      split at found
      · rename_i isName
        obtain ⟨t, rfl⟩ : ∃ t, tree = .token t := by
          cases tree with
          | token t => exact ⟨t, rfl⟩
          | node kind children => cases isName
        cases t
        case ident own =>
          cases found
          have word : name ∉ keywords := by simpa [Parse.isName] using isName
          exact ⟨value, spelled, read, word⟩
        all_goals cases found
      · cases found
    · cases found
  · cases found

theorem declarable_of_identifierIn {spelling name : String} (found : identifierIn? spelling = some name) :
    Name.isDeclarable name = true := by
  obtain ⟨value, _, read, word⟩ := names_of_identifierIn found
  have sound := (Tree.raw_cons.mp (Lexer.raw_readTrees read)).1.1
  have valid : Name.isValid name = true := Tree.wellFormed_of_sound sound
  simp [Name.isDeclarable, valid, word]

@[spec] theorem lookAhead_reads {α : Type} {p : Parse α} : Peeks (lookAhead p) := by
  refine reads_iff.mpr ?_
  intro input result after raw eq
  cases eq
  exact ⟨trivial, raw⟩

@[spec] theorem entryValue_reads : Reads entryValue fun name => Name.isDeclarable name = true := by
  mvcgen [entryValue]
  case vc4 found _ _ => exact ⟨declarable_of_identifierIn found, by simp_all⟩
  all_goals simp_all

theorem withEntry_reads {g : Grammar} {settings : Settings} (declarable : Declarable settings) :
    Reads (withEntry g settings) fun result => ∀ changed, result = .ok changed → Declarable changed := by
  mvcgen [withEntry]
  all_goals simp_all
  · exact ⟨by simp_all, declarable.returns⟩
  · exact ⟨declarable.dispatcher, by simp_all⟩

theorem entries_reads (g : Grammar) :
    Reads (entries g) fun result => ∀ settings, result = .ok settings → Declarable settings := by
  refine iterate_reads Declarable _ Declarable.default fun settings declarable => ?_
  have entry : Reads (withEntry g settings) _ := withEntry_reads declarable
  mvcgen [entry]
  all_goals simp_all [Round.Keeps]

theorem declarable_of_read {arguments : String} {settings : Settings} (asked : read arguments = .ok settings) :
    Declarable settings := by
  unfold read at asked
  split at asked
  · rename_i trees scanned
    unfold ofTrees at asked
    split at asked
    · rename_i result rest taken
      exact (reads_iff.mp (entries_reads _) _ _ _ (Lexer.raw_readTrees scanned) taken).1 settings asked
    · cases asked
  · cases asked

theorem named_of_read {arguments : String} {settings : Settings} (asked : read arguments = .ok settings) :
    Named settings :=
  (declarable_of_read asked).named

end TestDouble.Settings
