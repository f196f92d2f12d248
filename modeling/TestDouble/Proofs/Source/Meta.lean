import TestDouble.Proofs.Source.Running
/-!
# What reads as an attribute

An attribute is a path of words, behind which a group may stand, or a sign of equality and an expression. This is said
here without the reader, up to expressions; the reader finds an attribute exactly where one stands, whatever follows.
-/

namespace TestDouble

namespace Parse

variable {α β : Type} {input after : List Tree}

theorem bind_eq_some_iff {p : Parse β} {next : β → Parse α} {result : α × List Tree} :
    (p >>= next) input = some result ↔
      ∃ found middle, p input = some (found, middle) ∧ next found middle = some result := by
  have runs : (p >>= next) input = (p input).bind fun taken => next taken.1 taken.2 := rfl
  rw [runs, Option.bind_eq_some_iff]
  exact Prod.exists

theorem fails {p : Parse β} {next : β → Parse α} (stops : p input = none) : (p >>= next) input = none := by
  have runs : (p >>= next) input = (p input).bind fun taken => next taken.1 taken.2 := rfl
  rw [runs, stops]
  rfl

theorem takeIf_eq_some_iff {condition : Tree → Bool} {tree : Tree} :
    takeIf condition input = some (tree, after) ↔ input = tree :: after ∧ condition tree = true := by
  cases input with
  | nil => simp [takeIf]
  | cons first rest =>
      by_cases holds : condition first = true
      · simp only [takeIf, holds, if_true, Option.some.injEq, Prod.mk.injEq, List.cons.injEq]
        constructor
        · rintro ⟨rfl, rfl⟩
          exact ⟨⟨rfl, rfl⟩, holds⟩
        · exact fun both => both.1
      · simp only [takeIf, holds, List.cons.injEq]
        constructor
        · intro none
          cases none
        · rintro ⟨⟨rfl, rfl⟩, own⟩
          exact absurd own holds

theorem word_eq_some_iff {tree : Tree} :
    word input = some (tree, after) ↔ ∃ n, tree = Tree.ident n ∧ input = tree :: after := by
  unfold word
  rw [takeIf_eq_some_iff]
  constructor
  · rintro ⟨same, named⟩
    obtain ⟨n, found⟩ := Option.isSome_iff_exists.mp named
    refine ⟨n, ?_, same⟩
    unfold Tree.ident? at found
    split at found
    · cases found
      rfl
    · cases found
  · rintro ⟨n, rfl, same⟩
    exact ⟨same, rfl⟩

theorem op_eq_some_iff {text : String} {tree : Tree} :
    op text input = some (tree, after) ↔
      sees (.op text) input = true ∧ tree = Tree.punct text ∧ after = input.drop text.length := by
  show (if seesPunct text.toList input then some (Tree.punct text, input.drop text.length) else none) = _ ↔ _
  by_cases seen : seesPunct text.toList input = true
  · rw [if_pos seen, Option.some.injEq, Prod.mk.injEq]
    constructor
    · rintro ⟨rfl, rfl⟩
      exact ⟨seen, rfl, rfl⟩
    · rintro ⟨_, rfl, rfl⟩
      exact ⟨rfl, rfl⟩
  · rw [if_neg seen]
    constructor
    · intro none
      cases none
    · rintro ⟨own, _⟩
      exact absurd own seen

theorem sees_keyword_iff {text : String} :
    sees (.keyword text) input = true ↔ ∃ rest, input = Tree.ident text :: rest := by
  constructor
  · intro seen
    cases input with
    | nil => cases seen
    | cons first rest =>
        cases first with
        | node kind children => cases seen
        | token t =>
            cases t
            case ident own =>
              have same : own = text := beq_iff_eq.mp seen
              exact ⟨rest, same ▸ rfl⟩
            all_goals cases seen
  · rintro ⟨rest, rfl⟩
    exact beq_self_eq_true text

/-- A sign of one character is seen where it stands, also as the beginning of a longer one. -/
theorem sees_sign_iff (text : String) (sign : Char) (single : text = String.singleton sign) :
    sees (.op text) input = true ↔ ∃ joint rest, input = .token (.punct text joint) :: rest := by
  subst single
  rw [sees, String.toList_singleton]
  constructor
  · intro seen
    unfold seesPunct at seen
    split at seen
    · cases ‹[sign] = []›
    · rename_i spelling joint rest own
      cases own
      exact ⟨joint, rest, by rw [beq_iff_eq.mp seen]⟩
    · rename_i own
      cases own
    · cases seen
  · rintro ⟨joint, rest, rfl⟩
    exact beq_self_eq_true _

theorem op?_eq (text : String) (input : List Tree) :
    op? text input =
      some (if sees (.op text) input = true then (Tree.punct text, input.drop text.length) else (.absent, input)) := by
  show (maybe (op text) >>= fun found => pure (found.getD .absent)) input = _
  have taken : op text input = if sees (.op text) input = true then some (Tree.punct text, input.drop text.length)
      else none := rfl
  by_cases seen : sees (.op text) input = true
  · rw [if_pos seen] at taken ⊢
    exact goesOn (by simp only [maybe, taken]; rfl) rfl
  · rw [if_neg seen] at taken ⊢
    exact goesOn (by simp only [maybe, taken]; rfl) rfl

end Parse

namespace Grammar
open Parse

/-! ### Paths of words -/

/-- A word that a path may have, which is no keyword or one of those that stand for a place. -/
def PathWord (word : String) : Prop := word ∉ keywords ∨ word ∈ pathWords

/-- Words with two colons between them stand in front of what is left, which does not go on with two colons. -/
inductive WordPath : List String → List Tree → List Tree → Prop where
  | last {word : String} {after : List Tree} (begins : PathWord word) (ends : sees (.op "::") after = false) :
      WordPath [word] (Tree.ident word :: after) after
  | more {word : String} {words : List String} {rest after : List Tree} (begins : PathWord word)
      (colons : sees (.op "::") rest = true) (onward : WordPath words (rest.drop 2) after) :
      WordPath (word :: words) (Tree.ident word :: rest) after

theorem WordPath.ne_nil {words : List String} {input after : List Tree} (path : WordPath words input after) :
    words ≠ [] := by
  cases path <;> exact List.cons_ne_nil _ _

/-- The path of an attribute, which may begin with two colons. -/
inductive AttributePath : (rooted : Bool) → List String → List Tree → List Tree → Prop where
  | unsafeWord {after : List Tree} : AttributePath false ["unsafe"] (Tree.ident "unsafe" :: after) after
  | plain {words : List String} {input after : List Tree} (path : WordPath words input after) :
      AttributePath false words input after
  | rooted {words : List String} {input after : List Tree} (colons : sees (.op "::") input = true)
      (path : WordPath words (input.drop 2) after) : AttributePath true words input after

/-- Whether an attribute begins here. -/
def seesAttribute (trees : List Tree) : Bool := sees (.op "#") trees && sees (.group .bracket) (trees.drop 1)

/-- What follows a sign of equality, if one is seen, is an expression, and no attribute stands in front of it. -/
def ValueReads (g : Grammar) (after : List Tree) : Prop :=
  sees (.op "=") after = true →
    seesAttribute (after.drop 1) = false ∧ (g.expr true (after.drop 1)).isSome = true

def segmentsOf : List String → List Tree
  | [] => []
  | [word] => [.node .segment [Tree.ident word]]
  | word :: next :: words => .node .segment [Tree.ident word] :: Tree.punct "::" :: segmentsOf (next :: words)

theorem segmentsOf_more {word : String} {words : List String} (more : words ≠ []) :
    segmentsOf (word :: words) = .node .segment [Tree.ident word] :: Tree.punct "::" :: segmentsOf words := by
  obtain ⟨next, rest, rfl⟩ := List.exists_cons_of_ne_nil more
  rfl

def wordPath (rooted : Bool) (words : List String) : Tree :=
  .node .path ((if rooted then Tree.punct "::" else .absent) :: segmentsOf words)

theorem seesPathWord_eq (input : List Tree) :
    seesPathWord input = some (sees .name input || pathWords.any (fun word => sees (.keyword word) input), input) := by
  unfold seesPathWord
  cases named : sees .name input with
  | true => exact goesOn (congrArg (fun seen => some (seen, input)) named) rfl
  | false => exact goesOn (congrArg (fun seen => some (seen, input)) named) rfl

theorem pathWord_seen_ident {word : String} {rest : List Tree} :
    (sees .name (Tree.ident word :: rest) || pathWords.any (fun own => sees (.keyword own) (Tree.ident word :: rest))) =
      true ↔ PathWord word := by
  have named : sees .name (Tree.ident word :: rest) = !keywords.contains word := rfl
  have kept : pathWords.any (fun own => sees (.keyword own) (Tree.ident word :: rest)) =
      pathWords.any (word == ·) := rfl
  rw [named, kept, Bool.or_eq_true, Bool.not_eq_true', List.contains_eq_mem, decide_eq_false_iff_not,
    List.any_beq, List.contains_eq_mem, decide_eq_true_iff, PathWord]

theorem pathWord_seen {input : List Tree} :
    (sees .name input || pathWords.any (fun own => sees (.keyword own) input)) = true ↔
      ∃ word rest, input = Tree.ident word :: rest ∧ PathWord word := by
  constructor
  · intro seen
    cases input with
    | nil => cases seen
    | cons first rest =>
        cases first with
        | node kind children => cases seen
        | token t =>
            cases t
            case ident word => exact ⟨word, rest, rfl, pathWord_seen_ident.mp seen⟩
            all_goals cases seen
  · rintro ⟨word, rest, rfl, begins⟩
    exact pathWord_seen_ident.mpr begins

/-- One word of a path, and whether the path goes on. -/
def pathRound (found : List Tree) : Parse (Round (List Tree) (List Tree)) := do
  unless ← seesPathWord do fail
  let segment := Tree.node .segment [← word]
  if ← peekOp "::" then return .again ((← op "::") :: segment :: found)
  return .finish (segment :: found).reverse

theorem plainPath_eq : plainPath = do
    let lead ← op? "::"
    let segments ← iterate [] pathRound
    return .node .path (lead :: segments) := rfl

section Rounds

variable {word : String} {found rest : List Tree}

theorem pathRound_more (begins : PathWord word) (colons : sees (.op "::") rest = true) :
    pathRound found (Tree.ident word :: rest) =
      some (.again (Tree.punct "::" :: .node .segment [Tree.ident word] :: found), rest.drop 2) := by
  have seen := seesPathWord_eq (Tree.ident word :: rest)
  rw [pathWord_seen.mpr ⟨word, rest, rfl, begins⟩] at seen
  have peeked : peekOp "::" rest = some (true, rest) := congrArg (fun seen => some (seen, rest)) colons
  have taken : op "::" rest = some (Tree.punct "::", rest.drop 2) := op_eq_some_iff.mpr ⟨colons, rfl, rfl⟩
  exact goesOn seen (goesOn rfl (goesOn peeked (goesOn taken rfl)))

theorem pathRound_last (begins : PathWord word) (ends : sees (.op "::") rest = false) :
    pathRound found (Tree.ident word :: rest) =
      some (.finish (.node .segment [Tree.ident word] :: found).reverse, rest) := by
  have seen := seesPathWord_eq (Tree.ident word :: rest)
  rw [pathWord_seen.mpr ⟨word, rest, rfl, begins⟩] at seen
  have peeked : peekOp "::" rest = some (false, rest) := congrArg (fun seen => some (seen, rest)) ends
  exact goesOn seen (goesOn rfl (goesOn peeked rfl))

theorem pathRound_none {input : List Tree}
    (other : ¬ ∃ word rest, input = Tree.ident word :: rest ∧ PathWord word) : pathRound found input = none := by
  have seen := seesPathWord_eq input
  rw [Bool.eq_false_iff.mpr fun holds => other (pathWord_seen.mp holds)] at seen
  exact goesOn seen rfl

end Rounds

/-- Words are taken from the first to the last, as many as stand there. -/
theorem iterateWith_pathRound {fuel : Nat} {found input segments after : List Tree} (enough : input.length < fuel) :
    iterateWith pathRound fuel found input = some (segments, after) ↔
      ∃ words, WordPath words input after ∧ segments = found.reverse ++ segmentsOf words := by
  -- a round decides by its first tree alone: no word, a last word, or a word with two colons behind it
  induction fuel generalizing found input with
  | zero => exact absurd enough (Nat.not_lt_zero _)
  | succ fuel ih =>
      by_cases begins : ∃ word rest, input = Tree.ident word :: rest ∧ PathWord word
      · obtain ⟨word, rest, rfl, begins⟩ := begins
        cases colons : sees (.op "::") rest with
        | true =>
            have shorter : (rest.drop 2).length < fuel := by
              rw [List.length_drop]
              exact Nat.lt_of_le_of_lt (Nat.sub_le _ _) (Nat.lt_of_succ_lt_succ enough)
            rw [again (pathRound_more begins colons) rfl, ih shorter]
            constructor
            · rintro ⟨words, onward, rfl⟩
              refine ⟨word :: words, .more begins colons onward, ?_⟩
              simp [segmentsOf_more onward.ne_nil]
            · rintro ⟨_, path, rfl⟩
              cases path with
              | last _ ends => rw [colons] at ends; cases ends
              | more _ _ onward =>
                  exact ⟨_, onward, by simp [segmentsOf_more onward.ne_nil]⟩
        | false =>
            rw [finish (pathRound_last begins colons), Option.some.injEq, Prod.mk.injEq]
            constructor
            · rintro ⟨rfl, rfl⟩
              exact ⟨[word], .last begins colons, by simp [segmentsOf]⟩
            · rintro ⟨_, path, rfl⟩
              cases path with
              | last _ _ => exact ⟨by simp [segmentsOf], rfl⟩
              | more _ own _ => rw [colons] at own; cases own
      · have none : iterateWith pathRound (fuel + 1) found input = none :=
          fails (pathRound_none begins)
        rw [none]
        constructor
        · intro no
          cases no
        · rintro ⟨_, path, _⟩
          cases path with
          | last own _ => exact absurd ⟨_, _, rfl, own⟩ begins
          | more own _ _ => exact absurd ⟨_, _, rfl, own⟩ begins

theorem words_eq_some_iff {input segments after : List Tree} :
    iterate [] pathRound input = some (segments, after) ↔
      ∃ words, WordPath words input after ∧ segments = segmentsOf words :=
  iterateWith_pathRound (Nat.lt_succ_self _)

theorem WordPath.begins {words : List String} {input after : List Tree} (path : WordPath words input after) :
    ∃ word rest, input = Tree.ident word :: rest ∧ PathWord word := by
  cases path with
  | last begins _ => exact ⟨_, _, rfl, begins⟩
  | more begins _ _ => exact ⟨_, _, rfl, begins⟩

theorem plainPath_eq_some_iff {input after : List Tree} {path : Tree} :
    plainPath input = some (path, after) ↔
      ∃ rooted words, sees (.op "::") input = rooted ∧
        WordPath words (if rooted = true then input.drop 2 else input) after ∧ path = wordPath rooted words := by
  have runs : plainPath input = (iterate [] pathRound >>= fun segments => pure (Tree.node .path
      ((if sees (.op "::") input = true then Tree.punct "::" else .absent) :: segments)))
        (if sees (.op "::") input = true then input.drop 2 else input) := by
    rw [plainPath_eq]
    exact goesOn (op?_eq "::" input) (by cases sees (.op "::") input <;> rfl)
  rw [runs, bind_eq_some_iff]
  constructor
  · rintro ⟨segments, middle, read, same⟩
    obtain ⟨words, path, rfl⟩ := words_eq_some_iff.mp read
    cases same
    exact ⟨_, words, rfl, path, rfl⟩
  · rintro ⟨_, words, rfl, path, rfl⟩
    exact ⟨_, _, words_eq_some_iff.mpr ⟨words, path, rfl⟩, rfl⟩

/-! ### Attributes -/

section Items

variable {g : Grammar} {rooted : Bool} {words : List String} {input after final found : List Tree}

theorem unsafe_not_pathWord : ¬ PathWord "unsafe" :=
  not_or.mpr ⟨fun free => free (by decide), by decide⟩

theorem attributePath_unsafe_iff {rest : List Tree} :
    AttributePath rooted words (Tree.ident "unsafe" :: rest) after ↔
      rooted = false ∧ words = ["unsafe"] ∧ rest = after := by
  constructor
  · intro path
    cases path with
    | unsafeWord => exact ⟨rfl, rfl, rfl⟩
    | plain path =>
        obtain ⟨word, rest, same, begins⟩ := path.begins
        cases same
        exact absurd begins unsafe_not_pathWord
    | rooted colons _ => cases colons
  · rintro ⟨rfl, rfl, rfl⟩
    exact .unsafeWord

theorem attributePath_iff (other : sees (.keyword "unsafe") input = false) :
    AttributePath rooted words input after ↔
      sees (.op "::") input = rooted ∧ WordPath words (if rooted = true then input.drop 2 else input) after := by
  constructor
  · intro path
    cases path with
    | unsafeWord => cases other
    | plain path =>
        obtain ⟨word, rest, rfl, _⟩ := path.begins
        exact ⟨rfl, path⟩
    | rooted colons path => exact ⟨colons, path⟩
  · rintro ⟨colons, path⟩
    cases rooted with
    | true => exact .rooted colons path
    | false => exact .plain path

theorem AttributePath.ne_nil (path : AttributePath rooted words input after) : input ≠ [] := by
  rintro rfl
  cases path with
  | plain path =>
      obtain ⟨_, _, same, _⟩ := path.begins
      cases same
  | rooted colons _ => cases colons

theorem attributePath_single {word : String} (path : AttributePath false [word] input after) :
    input = Tree.ident word :: after := by
  cases path with
  | unsafeWord => rfl
  | plain path =>
      cases path with
      | last _ _ => rfl
      | more _ _ onward => exact absurd rfl onward.ne_nil

theorem metaItem_eq_some_iff :
    metaItem g input = some (found, final) ↔
      ∃ rooted words after more, AttributePath rooted words input after ∧
        attributeRest g after = some (more, final) ∧ found = wordPath rooted words :: more := by
  have ends : ∀ {path : Tree} {after : List Tree},
      (attributeRest g >>= fun more => (pure (path :: more) : Parse (List Tree))) after = some (found, final) ↔
        ∃ more, attributeRest g after = some (more, final) ∧ found = path :: more := by
    intro path after
    rw [bind_eq_some_iff]
    constructor
    · rintro ⟨more, last, read, same⟩
      cases same
      exact ⟨more, read, rfl⟩
    · rintro ⟨more, read, rfl⟩
      exact ⟨more, final, read, rfl⟩
  cases reserved : sees (.keyword "unsafe") input with
  | true =>
      obtain ⟨rest, rfl⟩ := sees_keyword_iff.mp reserved
      have runs : metaItem g (Tree.ident "unsafe" :: rest) =
          (attributeRest g >>= fun more => pure (wordPath false ["unsafe"] :: more)) rest :=
        goesOn rfl (goesOn rfl rfl)
      rw [runs, ends]
      constructor
      · rintro ⟨more, read, rfl⟩
        exact ⟨false, _, rest, more, .unsafeWord, read, rfl⟩
      · rintro ⟨_, _, _, more, path, read, rfl⟩
        obtain ⟨rfl, rfl, rfl⟩ := attributePath_unsafe_iff.mp path
        exact ⟨more, read, rfl⟩
  | false =>
      have peeked : peekKeyword "unsafe" input = some (false, input) :=
        congrArg (fun seen => some (seen, input)) reserved
      have runs : metaItem g input =
          (plainPath >>= fun path => attributeRest g >>= fun more => pure (path :: more)) input :=
        goesOn peeked rfl
      rw [runs, bind_eq_some_iff]
      constructor
      · rintro ⟨path, after, read, onward⟩
        obtain ⟨rooted, words, colons, own, rfl⟩ := plainPath_eq_some_iff.mp read
        obtain ⟨more, rest, rfl⟩ := ends.mp onward
        exact ⟨rooted, words, after, more, (attributePath_iff reserved).mpr ⟨colons, own⟩, rest, rfl⟩
      · rintro ⟨rooted, words, after, more, path, rest, rfl⟩
        obtain ⟨colons, own⟩ := (attributePath_iff reserved).mp path
        exact ⟨_, after, plainPath_eq_some_iff.mpr ⟨rooted, words, colons, own, rfl⟩, ends.mpr ⟨more, rest, rfl⟩⟩

/-- Whether trees are a literal or a negative number and nothing else. -/
def isLoneLiteral (trees : List Tree) : Bool :=
  match trees with
  | [.token (.literal _)] => true
  | [.token (.punct "-" _), .token (.literal _)] => seesLiteral trees
  | _ => false

/-- What is read alone as a literal would be read as an expression too. -/
theorem expr_of_isLoneLiteral (level : Nat) {value : List Tree} (lone : isLoneLiteral value = true) :
    ((bounded (level + 8)).expr true value).isSome = true := by
  unfold isLoneLiteral at lone
  split at lone
  · rfl
  · rfl
  · cases lone

theorem attributeRest_value (level : Nat) (joint : Bool) (value : List Tree) :
    (attributeRest (bounded (level + 8)) (.token (.punct "=" joint) :: value)).isSome = true ↔
      seesAttribute value = false ∧ ((bounded (level + 8)).expr true value).isSome = true := by
  have runs : attributeRest (bounded (level + 8)) (.token (.punct "=" joint) :: value) =
      (if isLoneLiteral value = true then (do
        let literal ← whileHolds (return !(← atEnd)) (takeIf fun _ => true)
        return [Tree.punct "=", .node .literal (.node .attributes [] :: literal)])
      else (do
        if (← peekOp "#") && (← seesAt 1 (.group .bracket)) then fail
        else return [Tree.punct "=", ← (bounded (level + 8)).expr true]) : Parse (List Tree)) value := by
    refine goesOn rfl (goesOn rfl (goesOn rfl (goesOn rfl ?_)))
    rfl
  rw [runs]
  by_cases lone : isLoneLiteral value = true
  · rw [if_pos lone]
    have readable := expr_of_isLoneLiteral level lone
    unfold isLoneLiteral at lone
    split at lone
    · exact ⟨fun _ => ⟨rfl, readable⟩, fun _ => rfl⟩
    · exact ⟨fun _ => ⟨rfl, readable⟩, fun _ => rfl⟩
    · cases lone
  · rw [if_neg lone]
    have onward : ((do
        if (← peekOp "#") && (← seesAt 1 (.group .bracket)) then fail
        else return [Tree.punct "=", ← (bounded (level + 8)).expr true]) : Parse (List Tree)) value =
          (if seesAttribute value = true then fail
          else do return [Tree.punct "=", ← (bounded (level + 8)).expr true] : Parse (List Tree)) value :=
      goesOn rfl (goesOn rfl rfl)
    rw [onward]
    cases seesAttribute value with
    | true => exact ⟨fun none => (by cases none), fun both => (by cases both.1)⟩
    | false =>
        rw [if_neg Bool.false_ne_true]
        constructor
        · intro reads
          obtain ⟨⟨found, final⟩, read⟩ := Option.isSome_iff_exists.mp reads
          obtain ⟨expr, middle, own, _⟩ := bind_eq_some_iff.mp read
          exact ⟨rfl, Option.isSome_iff_exists.mpr ⟨_, own⟩⟩
        · rintro ⟨_, reads⟩
          obtain ⟨⟨expr, middle⟩, own⟩ := Option.isSome_iff_exists.mp reads
          exact Option.isSome_iff_exists.mpr ⟨_, goesOn own rfl⟩

/-- Nothing but an expression that does not read keeps an attribute from being read behind its path. -/
theorem attributeRest_isSome (level : Nat) :
    (attributeRest (bounded (level + 8)) after).isSome = true ↔ ValueReads (bounded (level + 8)) after := by
  cases value : sees (.op "=") after with
  | true =>
      obtain ⟨joint, rest, rfl⟩ := (sees_sign_iff "=" '=' rfl).mp value
      rw [attributeRest_value]
      exact ⟨fun reads _ => reads, fun reads => reads value⟩
  | false =>
      have reads : (attributeRest (bounded (level + 8)) after).isSome = true := by
        cases after with
        | nil => rfl
        | cons first rest =>
            cases first with
            | token t =>
                have peeked : peekOp "=" (Tree.token t :: rest) = some (false, Tree.token t :: rest) :=
                  congrArg (fun seen => some (seen, Tree.token t :: rest)) value
                exact Option.isSome_iff_exists.mpr ⟨_, goesOn rfl (goesOn peeked rfl)⟩
            | node kind children =>
                cases kind
                case group d => cases d <;> rfl
                all_goals rfl
      exact ⟨fun _ seen => absurd (value.symm.trans seen) Bool.false_ne_true, fun _ => reads⟩

end Items

section Words

variable {rooted : Bool} {words : List String} {word : String}

theorem segments_wordPath :
    (wordPath rooted words).segments = words.map fun word => .node .segment [Tree.ident word] := by
  have segments : ∀ words : List String, (segmentsOf words).filter (fun tree => tree.kind? == some .segment) =
      words.map fun word => .node .segment [Tree.ident word] := by
    intro words
    induction words with
    | nil => rfl
    | cons word words ih =>
        cases words with
        | nil => rfl
        | cons next rest =>
            rw [segmentsOf_more (List.cons_ne_nil _ _), List.map_cons, ← ih]
            rfl
  cases rooted <;> exact segments words

/-- A path is a single name when it is that word and nothing else. -/
theorem onlyName?_wordPath : (wordPath rooted words).onlyName? = some word ↔ rooted = false ∧ words = [word] := by
  unfold Tree.onlyName?
  rw [segments_wordPath]
  match words with
  | [] => simp
  | [own] =>
      cases rooted with
      | true => simp [wordPath, Tree.isRootPath, Tree.isPunct, Tree.punct]
      | false => simp [wordPath, Tree.isRootPath, Tree.isPunct, Tree.absent, Tree.hasArguments, Tree.segmentName, Tree.ident]
  | _ :: _ :: _ => simp

end Words

end Grammar

end TestDouble
