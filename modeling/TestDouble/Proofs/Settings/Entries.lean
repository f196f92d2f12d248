import TestDouble.Proofs.Settings
import TestDouble.Proofs.Source.Meta
/-!
# The entries of an annotation

What the arguments of an annotation may be is given here as a grammar of its own: entries between commas, each with a
name of one identifier in quotes. The reader takes exactly such lists. It calls an entry unsupported exactly when an
attribute with another path begins where an entry should, behind entries that are in order.
-/

namespace TestDouble.Settings
open Parse Grammar

/-! ### The grammar of the entries -/

inductive Field where
  | rename
  | returns
  deriving DecidableEq

def Field.word : Field → String
  | rename => "rename"
  | returns => "returns"

structure Entry where
  field : Field
  name : String

/-- An entry stands in front of what is left. -/
def Entry.Stands (entry : Entry) (trees after : List Tree) : Prop :=
  ∃ joint spelling, Names spelling entry.name ∧
    trees = Tree.ident entry.field.word :: .token (.punct "=" joint) :: .token (.literal spelling) :: after

/-- The trees are a list of these entries with commas between them; one may also stand behind the last entry. -/
inductive Listed : List Entry → List Tree → Prop where
  | nil : Listed [] []
  | last {entry : Entry} {trees : List Tree} (stands : entry.Stands trees []) : Listed [entry] trees
  | more {entry : Entry} {entries : List Entry} {trees rest : List Tree} {joint : Bool}
      (stands : entry.Stands trees (.token (.punct "," joint) :: rest)) (onward : Listed entries rest) :
      Listed (entry :: entries) trees

/-- An attribute begins here whose path is none of the two words. -/
def Foreign (g : Grammar) (trees : List Tree) : Prop :=
  ∃ rooted words after, AttributePath rooted words trees after ∧ ValueReads g after ∧
    ∀ field : Field, ¬ (rooted = false ∧ words = [field.word])

/-- Behind entries in order, each with its comma, stands what begins as another attribute. -/
inductive Refused (g : Grammar) : List Tree → Prop where
  | here {trees : List Tree} (foreign : Foreign g trees) : Refused g trees
  | later {entry : Entry} {trees rest : List Tree} {joint : Bool}
      (stands : entry.Stands trees (.token (.punct "," joint) :: rest)) (refused : Refused g rest) : Refused g trees

/-- The last name that the entries give to a field, or the one it has without them. -/
def lastName (field : Field) (entries : List Entry) (usual : String) : String :=
  ((entries.filter (·.field = field)).getLast?.map Entry.name).getD usual

/-- Behind the comma there is less left than there was. -/
theorem Entry.Stands.enough {entry : Entry} {trees rest : List Tree} {comma : Tree} {fuel : Nat}
    (stands : entry.Stands trees (comma :: rest)) (enough : trees.length < fuel + 1) : rest.length < fuel := by
  obtain ⟨_, _, _, rfl⟩ := stands
  simp only [List.length_cons] at enough
  omega

/-! ### One entry -/

def set (settings : Settings) (entry : Entry) : Settings :=
  match entry.field with
  | .rename => { settings with dispatcher := entry.name }
  | .returns => { settings with returns := entry.name }

theorem identifierIn?_eq_some_iff {spelling name : String} :
    identifierIn? spelling = some name ↔ Names spelling name := by
  constructor
  · exact names_of_identifierIn
  · rintro ⟨value, spelled, read, word⟩
    simp only [identifierIn?, spelled, read, isName_name word, if_true]
    rfl

theorem entryValue_eq_some_iff {input after : List Tree} {name : String} :
    entryValue input = some (name, after) ↔
      ∃ word joint spelling, Names spelling name ∧
        input = Tree.ident word :: .token (.punct "=" joint) :: .token (.literal spelling) :: after := by
  constructor
  · intro reads
    obtain ⟨_, behindWord, isWord, reads⟩ := bind_eq_some_iff.mp reads
    obtain ⟨_, behindSign, isSign, reads⟩ := bind_eq_some_iff.mp reads
    obtain ⟨tree, behindValue, isValue, reads⟩ := bind_eq_some_iff.mp reads
    obtain ⟨word, rfl, rfl⟩ := word_eq_some_iff.mp isWord
    obtain ⟨seen, rfl, rfl⟩ := op_eq_some_iff.mp isSign
    obtain ⟨joint, rest, rfl⟩ := (sees_sign_iff "=" '=' rfl).mp seen
    obtain ⟨same, literal⟩ := takeIf_eq_some_iff.mp isValue
    split at literal
    · rename_i spelling
      cases found : identifierIn? spelling with
      | none => simp only [found] at reads; cases reads
      | some own =>
          simp only [found] at reads
          cases reads
          have behind : rest = .token (.literal spelling) :: after := same
          exact ⟨word, joint, spelling, identifierIn?_eq_some_iff.mp found, by rw [behind]⟩
    · cases literal
  · rintro ⟨word, joint, spelling, names, rfl⟩
    have found := identifierIn?_eq_some_iff.mpr names
    refine goesOn rfl (goesOn rfl (goesOn rfl ?_))
    simp only [found]
    rfl

section Reader

variable {level : Nat} {settings : Settings} {entry : Entry} {input after : List Tree}

/-- What stands behind an entry in a list of them. -/
def EntryEnds (after : List Tree) : Prop := after = [] ∨ ∃ joint rest, after = .token (.punct "," joint) :: rest

theorem attributePath_entry (stands : entry.Stands input after) :
    ∃ rest, AttributePath false [entry.field.word] input rest ∧
      (EntryEnds after → ValueReads (bounded (level + 8)) rest) := by
  obtain ⟨joint, spelling, _, rfl⟩ := stands
  refine ⟨_, .plain (.last (.inl ?_) rfl), ?_⟩
  · cases entry.field <;> decide
  · rintro (rfl | ⟨joint, rest, rfl⟩) _
    · exact ⟨rfl, rfl⟩
    · exact ⟨rfl, rfl⟩

theorem lookAhead_path {g : Grammar} {rooted : Bool} {words : List String} {rest : List Tree}
    (path : AttributePath rooted words input rest) (reads : (attributeRest g rest).isSome = true) :
    ∃ more, lookAhead (metaItem g) input = some (some (wordPath rooted words :: more), input) := by
  obtain ⟨⟨more, final⟩, read⟩ := Option.isSome_iff_exists.mp reads
  have found := metaItem_eq_some_iff.mpr ⟨rooted, words, rest, more, path, read, rfl⟩
  exact ⟨more, by simp only [lookAhead, found, Option.map_some]⟩

theorem withEntry_field {g : Grammar} {rest : List Tree} (field : Field)
    (path : AttributePath false [field.word] input rest) (reads : (attributeRest g rest).isSome = true) :
    withEntry g settings input =
      (entryValue >>= fun name => pure (Except.ok (set settings ⟨field, name⟩))) input := by
  obtain ⟨more, ahead⟩ := lookAhead_path path reads
  refine goesOn ahead ?_
  cases field <;> rfl

theorem withEntry_foreign (foreign : Foreign (bounded (level + 8)) input) :
    withEntry (bounded (level + 8)) settings input = some (.error .unsupported, input) := by
  obtain ⟨rooted, words, rest, path, value, other⟩ := foreign
  obtain ⟨more, ahead⟩ := lookAhead_path path ((attributeRest_isSome level).mpr value)
  have notRename : ¬ (wordPath rooted words).onlyName? = some "rename" := fun own =>
    other .rename (onlyName?_wordPath.mp own)
  have notReturns : ¬ (wordPath rooted words).onlyName? = some "returns" := fun own =>
    other .returns (onlyName?_wordPath.mp own)
  refine goesOn ahead ?_
  simp only [if_neg notRename, if_neg notReturns]
  rfl

/-- What the reader finds where an entry should be is an entry or another attribute. -/
theorem withEntry_found {result : Except SettingsError Settings}
    (reads : withEntry (bounded (level + 8)) settings input = some (result, after)) :
    (∃ entry : Entry, entry.Stands input after ∧ result = .ok (set settings entry)) ∨
      (Foreign (bounded (level + 8)) input ∧ result = .error .unsupported) := by
  obtain ⟨ahead, middle, looked, onward⟩ := bind_eq_some_iff.mp reads
  cases found : metaItem (bounded (level + 8)) input with
  | none =>
      simp only [lookAhead, found] at looked
      cases looked
      cases onward
  | some taken =>
      obtain ⟨rooted, words, rest, more, path, read, _⟩ := metaItem_eq_some_iff.mp found
      have rest := Option.isSome_iff_exists.mpr ⟨_, read⟩
      by_cases own : ∃ field : Field, rooted = false ∧ words = [field.word]
      · obtain ⟨field, rfl, rfl⟩ := own
        rw [withEntry_field field path rest] at reads
        obtain ⟨name, behind, value, same⟩ := bind_eq_some_iff.mp reads
        cases same
        obtain ⟨word, joint, spelling, names, rfl⟩ := entryValue_eq_some_iff.mp value
        cases attributePath_single path
        exact .inl ⟨⟨field, name⟩, ⟨joint, spelling, names, rfl⟩, rfl⟩
      · have foreign : Foreign (bounded (level + 8)) input :=
          ⟨rooted, words, _, path, (attributeRest_isSome level).mp rest, not_exists.mp own⟩
        rw [withEntry_foreign foreign] at reads
        cases reads
        exact .inr ⟨foreign, rfl⟩

theorem withEntry_entry (stands : entry.Stands input after) (ends : EntryEnds after) :
    withEntry (bounded (level + 8)) settings input = some (.ok (set settings entry), after) := by
  obtain ⟨rest, path, value⟩ := attributePath_entry stands
  rw [withEntry_field entry.field path ((attributeRest_isSome level).mpr (value ends))]
  obtain ⟨joint, spelling, names, rfl⟩ := stands
  exact goesOn (entryValue_eq_some_iff.mpr ⟨_, joint, spelling, names, rfl⟩) rfl

end Reader

/-! ### Lists of entries -/

/-- One round: the end, or an entry with what stands behind it. -/
def entryRound (g : Grammar) (settings : Settings) : Parse (Round Settings (Except SettingsError Settings)) := do
  if ← atEnd then return .finish (.ok settings)
  match ← withEntry g settings with
  | .ok settings =>
    if ← atEnd then return .finish (.ok settings)
    let _ ← op ","
    return .again settings
  | .error error => return .finish (.error error)

theorem entries_eq (g : Grammar) : entries g = iterate {} (entryRound g) := rfl

section Rounds

variable {level fuel : Nat} {settings : Settings} {entry : Entry} {input after rest final : List Tree} {joint : Bool}

theorem entryRound_nil {g : Grammar} : entryRound g settings [] = some (.finish (.ok settings), []) := rfl

theorem atEnd_entry (stands : entry.Stands input after) : atEnd input = some (false, input) := by
  obtain ⟨_, _, _, rfl⟩ := stands
  rfl

theorem entryRound_last (stands : entry.Stands input []) :
    entryRound (bounded (level + 8)) settings input = some (.finish (.ok (set settings entry)), []) :=
  goesOn (atEnd_entry stands) (goesOn (withEntry_entry stands (.inl rfl)) (goesOn rfl rfl))

theorem entryRound_more (stands : entry.Stands input (.token (.punct "," joint) :: rest)) :
    entryRound (bounded (level + 8)) settings input = some (.again (set settings entry), rest) :=
  goesOn (atEnd_entry stands)
    (goesOn (withEntry_entry stands (.inr ⟨joint, rest, rfl⟩)) (goesOn rfl (goesOn rfl rfl)))

theorem entryRound_foreign (foreign : Foreign (bounded (level + 8)) input) :
    entryRound (bounded (level + 8)) settings input = some (.finish (.error .unsupported), input) := by
  obtain ⟨first, rest, rfl⟩ : ∃ first rest, input = first :: rest := by
    obtain ⟨_, _, _, path, _⟩ := foreign
    exact List.exists_cons_of_ne_nil path.ne_nil
  exact goesOn rfl (goesOn (withEntry_foreign foreign) rfl)

/-- Entries in order are applied one after the other. -/
theorem iterateWith_listed {entries : List Entry} (listed : Listed entries input) (enough : input.length < fuel) :
    iterateWith (entryRound (bounded (level + 8))) fuel settings input =
      some (.ok (entries.foldl set settings), []) := by
  -- every entry but the last takes its comma, so there is a round for each
  induction listed generalizing fuel settings with
  | nil =>
      obtain ⟨fuel, rfl⟩ := Nat.exists_eq_succ_of_ne_zero (Nat.ne_zero_of_lt enough)
      exact finish entryRound_nil
  | last stands =>
      obtain ⟨fuel, rfl⟩ := Nat.exists_eq_succ_of_ne_zero (Nat.ne_zero_of_lt enough)
      exact finish (entryRound_last stands)
  | more stands _ ih =>
      obtain ⟨fuel, rfl⟩ := Nat.exists_eq_succ_of_ne_zero (Nat.ne_zero_of_lt enough)
      exact again (entryRound_more stands) (ih (stands.enough enough))

theorem iterateWith_refused (refused : Refused (bounded (level + 8)) input) (enough : input.length < fuel) :
    ∃ final, iterateWith (entryRound (bounded (level + 8))) fuel settings input =
      some (.error .unsupported, final) := by
  induction refused generalizing fuel settings with
  | here foreign =>
      obtain ⟨fuel, rfl⟩ := Nat.exists_eq_succ_of_ne_zero (Nat.ne_zero_of_lt enough)
      exact ⟨_, finish (entryRound_foreign foreign)⟩
  | later stands _ ih =>
      obtain ⟨fuel, rfl⟩ := Nat.exists_eq_succ_of_ne_zero (Nat.ne_zero_of_lt enough)
      obtain ⟨final, rest⟩ := @ih fuel (set settings _) (stands.enough enough)
      exact ⟨final, again (entryRound_more stands) rest⟩

/-- Whatever a round decides is one of four things. -/
theorem entryRound_found {round : Round Settings (Except SettingsError Settings)}
    (reads : entryRound (bounded (level + 8)) settings input = some (round, after)) :
    (input = [] ∧ round = .finish (.ok settings)) ∨
      (∃ entry : Entry, entry.Stands input [] ∧ round = .finish (.ok (set settings entry))) ∨
      (∃ (entry : Entry) (joint : Bool), entry.Stands input (.token (.punct "," joint) :: after) ∧
        round = .again (set settings entry)) ∨
      (Foreign (bounded (level + 8)) input ∧ round = .finish (.error .unsupported)) := by
  cases input with
  | nil =>
      cases reads
      exact .inl ⟨rfl, rfl⟩
  | cons first tail =>
      refine .inr ?_
      have begins : entryRound (bounded (level + 8)) settings (first :: tail) =
        (withEntry (bounded (level + 8)) settings >>= fun
          | .ok settings => do
            if ← atEnd then return .finish (.ok settings)
            let _ ← op ","
            return .again settings
          | .error error => return .finish (.error error)) (first :: tail) := goesOn rfl rfl
      rw [begins] at reads
      obtain ⟨result, behind, found, onward⟩ := bind_eq_some_iff.mp reads
      obtain ⟨entry, stands, rfl⟩ | ⟨foreign, rfl⟩ := withEntry_found found
      · cases behind with
        | nil =>
            cases onward
            exact .inl ⟨entry, stands, rfl⟩
        | cons next rest =>
            have separates : (op "," >>= fun _ => (pure (.again (set settings entry)) :
                Parse (Round Settings (Except SettingsError Settings)))) (next :: rest) = some (round, after) := onward
            obtain ⟨_, middle, comma, same⟩ := bind_eq_some_iff.mp separates
            obtain ⟨seen, _, rfl⟩ := op_eq_some_iff.mp comma
            obtain ⟨joint, tail, own⟩ := (sees_sign_iff "," ',' rfl).mp seen
            cases own
            cases same
            exact .inr (.inl ⟨entry, joint, stands, rfl⟩)
      · cases onward
        exact .inr (.inr ⟨foreign, rfl⟩)

theorem iterateWith_found {result : Except SettingsError Settings}
    (reads : iterateWith (entryRound (bounded (level + 8))) fuel settings input = some (result, final)) :
    (∃ entries, Listed entries input ∧ result = .ok (entries.foldl set settings)) ∨
      (Refused (bounded (level + 8)) input ∧ result = .error .unsupported) := by
  induction fuel generalizing settings input with
  | zero => cases reads
  | succ fuel ih =>
      obtain ⟨round, middle, first, onward⟩ := bind_eq_some_iff.mp reads
      obtain ⟨rfl, rfl⟩ | ⟨entry, stands, rfl⟩ | ⟨entry, joint, stands, rfl⟩ | ⟨foreign, rfl⟩ := entryRound_found first
      · cases onward
        exact .inl ⟨[], .nil, rfl⟩
      · cases onward
        exact .inl ⟨[entry], .last stands, rfl⟩
      · obtain ⟨entries, listed, rfl⟩ | ⟨refused, rfl⟩ := ih onward
        · exact .inl ⟨entry :: entries, .more stands listed, rfl⟩
        · exact .inr ⟨.later stands refused, rfl⟩
      · cases onward
        exact .inr ⟨.here foreign, rfl⟩

end Rounds

/-! ### The last of the entries -/

theorem lastName_cons (field : Field) (entry : Entry) (entries : List Entry) (usual : String) :
    lastName field (entry :: entries) usual =
      lastName field entries (if entry.field = field then entry.name else usual) := by
  unfold lastName
  by_cases own : entry.field = field
  · rw [List.filter_cons_of_pos (by simpa using own), if_pos own, List.getLast?_cons]
    cases (entries.filter (·.field = field)).getLast? <;> rfl
  · rw [List.filter_cons_of_neg (by simpa using own), if_neg own]

theorem foldl_set (entries : List Entry) (settings : Settings) :
    entries.foldl set settings =
      ⟨lastName .rename entries settings.dispatcher, lastName .returns entries settings.returns⟩ := by
  induction entries generalizing settings with
  | nil => rfl
  | cons entry entries ih =>
      rw [List.foldl_cons, ih, lastName_cons, lastName_cons]
      obtain ⟨field, name⟩ := entry
      cases field <;> rfl

theorem ofTrees_eq_iff {trees : List Tree} {result : Except SettingsError Settings}
    (other : result ≠ .error .malformed) :
    ofTrees trees = result ↔
      ∃ final, iterateWith (entryRound (Grammar.forTrees trees)) (trees.length + 1) {} trees =
        some (result, final) := by
  have runs : entries (Grammar.forTrees trees) trees =
      iterateWith (entryRound (Grammar.forTrees trees)) (trees.length + 1) {} trees := by
    rw [entries_eq]
    rfl
  unfold ofTrees
  rw [runs]
  cases iterateWith (entryRound (Grammar.forTrees trees)) (trees.length + 1) {} trees with
  | none =>
      constructor
      · intro same
        exact absurd same.symm other
      · rintro ⟨_, same⟩
        cases same
  | some taken =>
      constructor
      · rintro rfl
        exact ⟨taken.2, rfl⟩
      · rintro ⟨final, same⟩
        cases same
        rfl

/-- Settings are read from lists of entries and from nothing else, and what is unsupported is another attribute. -/
theorem ofTrees_exact (trees : List Tree) :
    (∀ settings : Settings, ofTrees trees = .ok settings ↔
      ∃ entries, Listed entries trees ∧ settings.dispatcher = lastName .rename entries "Ghost" ∧
        settings.returns = lastName .returns entries "returns") ∧
    (ofTrees trees = .error .unsupported ↔ Refused (Grammar.forTrees trees) trees) := by
  have enough : trees.length < trees.length + 1 := Nat.lt_succ_self _
  constructor
  · intro settings
    rw [ofTrees_eq_iff (by simp)]
    constructor
    · rintro ⟨final, read⟩
      obtain ⟨entries, listed, same⟩ | ⟨_, same⟩ := iterateWith_found read
      · rw [foldl_set] at same
        cases same
        exact ⟨entries, listed, rfl, rfl⟩
      · cases same
    · rintro ⟨entries, listed, dispatcher, returns⟩
      have same : settings = entries.foldl set {} := by
        rw [foldl_set, ← dispatcher, ← returns]
      exact ⟨[], same ▸ iterateWith_listed listed enough⟩
  · rw [ofTrees_eq_iff (by simp)]
    constructor
    · rintro ⟨final, read⟩
      obtain ⟨entries, _, same⟩ | ⟨refused, _⟩ := iterateWith_found read
      · cases same
      · exact refused
    · intro refused
      exact iterateWith_refused refused enough

example : read "rename = \"A\", returns = \"gives\", rename = r\"B\"," = .ok ⟨"B", "gives"⟩ := by
  decide +kernel

/-- A string with a suffix gives no name, and a path of one word is refused although it is no whole attribute. -/
theorem refused_suffix_and_beginning :
    (∃ value, LiteralValue.ofSpelling "\"A\"x" = .text value "x" ∧ Lexer.readTrees value = some [Tree.ident "A"] ∧
      "A" ∉ keywords ∧ read "rename = \"A\"x" = .error .malformed) ∧
    ∃ trees, Lexer.readTrees "nope 1" = some trees ∧ trees.any (·.isPunct ",") = false ∧
      Parse.complete (metaItem (Grammar.forTrees trees)) trees = none ∧ ofTrees trees = .error .unsupported := by
  constructor
  · have found : identifierIn? "\"A\"" = some "A" := by decide +kernel
    obtain ⟨value, spelled, read, word⟩ := identifierIn?_eq_some_iff.mp found
    have plain : LiteralValue.ofSpelling "\"A\"" = .text "A" "" := rfl
    cases plain.symm.trans spelled
    exact ⟨"A", rfl, read, word, by decide +kernel⟩
  · have runs : (Lexer.readTrees "nope 1").map (fun trees =>
        (trees.any (·.isPunct ","), (Parse.complete (metaItem (Grammar.forTrees trees)) trees).isNone, ofTrees trees)) =
          some (false, true, .error .unsupported) := by decide +kernel
    obtain ⟨trees, lexed, same⟩ := Option.map_eq_some_iff.mp runs
    obtain ⟨single, unread, unsupported⟩ : _ ∧ _ ∧ _ := by simpa only [Prod.mk.injEq] using same
    exact ⟨trees, lexed, single, Option.isNone_iff_eq_none.mp unread, unsupported⟩

end TestDouble.Settings
