import TestDouble.Proofs.Source.Normal
import TestDouble.Proofs.Source.Plain
import TestDouble.Source.Rereading
/-!
# Running readers

How a reader gets through trees of which only some are known. Words and signs are read by computing; a name is only
known not to be a keyword, and whatever the rules ask of it is answered from that. A run is put together step by step,
each step with what it leaves to be read.
-/

namespace TestDouble

namespace Parse

section Steps

variable {α β : Type} {result : Option (α × List Tree)} {input middle after : List Tree}

/-- A reader that begins with another one goes on with what that one found. -/
theorem goesOn {p : Parse β} {next : β → Parse α} {found : β} (reads : p input = some (found, middle))
    (onward : next found middle = result) : (p >>= next) input = result := by
  have runs : (p >>= next) input = (p input).bind fun taken => next taken.1 taken.2 := rfl
  rw [runs, reads]
  exact onward

/-- A reader takes all that stands in front of what is left. -/
def Takes (p : Parse α) (input after : List Tree) : Prop :=
  ∃ found, p input = some (found, after)

theorem Takes.step {p : Parse β} {next : β → Parse α} {found : β} (reads : p input = some (found, middle))
    (onward : Takes (next found) middle after) : Takes (p >>= next) input after := by
  obtain ⟨last, ends⟩ := onward
  exact ⟨last, goesOn reads ends⟩

variable {step : β → Parse (Round β α)} {state next : β} {last : α} {fuel : Nat}

theorem again (goes : step state input = some (.again next, middle))
    (onward : iterateWith step fuel next middle = result) :
    iterateWith step (fuel + 1) state input = result :=
  goesOn goes onward

theorem finish (ends : step state input = some (.finish last, after)) :
    iterateWith step (fuel + 1) state input = some (last, after) :=
  goesOn ends rfl

theorem rounds (runs : iterateWith step (input.length + 1) state input = result) : iterate state step input = result :=
  runs

theorem oneRound (ends : step state input = some (.finish last, after)) :
    iterate state step input = some (last, after) :=
  rounds (finish ends)

end Steps

theorem within_taken {d : Delimiter} {p : Parse (List Tree)} {content children after : List Tree}
    (reads : p content = some (children, [])) :
    within d p (.node (.group d) content :: after) = some (Tree.group d children, after) := by
  simp only [within, beq_self_eq_true, if_pos, reads]

/-- A list of trees that a reader takes one after the other, with nothing left. -/
inductive Yields (p : Parse Tree) : List Tree → List Tree → Prop where
  | nil : Yields p [] []
  | cons {head first : Tree} {tail rest trees : List Tree} (reads : p (head :: tail) = some (first, rest))
      (shorter : rest.length ≤ tail.length) (more : Yields p rest trees) : Yields p (head :: tail) (first :: trees)

/-- Every round takes a tree, so that there are enough of them. -/
theorem iterateWith_yields {p : Parse Tree} {input trees : List Tree} (yields : Yields p input trees) :
    ∀ {fuel : Nat} {found : List Tree}, input.length < fuel →
      iterateWith (fun found => do
        if ← atEnd then return .finish found.reverse
        return .again ((← p) :: found)) fuel found input = some (found.reverse ++ trees, []) := by
  induction yields with
  | nil =>
      intro fuel found enough
      obtain ⟨fuel, rfl⟩ := Nat.exists_eq_succ_of_ne_zero (Nat.ne_zero_of_lt enough)
      rw [List.append_nil]
      exact finish rfl
  | cons reads shorter more ih =>
      intro fuel found enough
      obtain ⟨fuel, rfl⟩ := Nat.exists_eq_succ_of_ne_zero (Nat.ne_zero_of_lt enough)
      have less := Nat.lt_of_le_of_lt shorter (Nat.lt_of_succ_lt_succ enough)
      rw [List.append_cons, ← List.reverse_cons]
      exact again (goesOn rfl (goesOn reads rfl)) (ih less)

theorem untilEnd_yields {p : Parse Tree} {input trees : List Tree} (yields : Yields p input trees) :
    untilEnd p input = some (trees, []) :=
  rounds (iterateWith_yields yields (Nat.lt_succ_self _))

theorem commaList_one {p : Parse Tree} {head element : Tree} {tail : List Tree}
    (reads : p (head :: tail) = some (element, [])) : commaList p (head :: tail) = some ([element], []) := by
  unfold commaList separated
  exact oneRound (goesOn rfl (goesOn reads (goesOn rfl rfl)))

theorem commaList_two {p : Parse Tree} {head next first second : Tree} {tail rest : List Tree}
    (reads : p (head :: tail) = some (first, Tree.punct "," :: next :: rest))
    (more : p (next :: rest) = some (second, [])) :
    commaList p (head :: tail) = some ([first, Tree.punct ",", second], []) := by
  unfold commaList separated
  refine rounds (again (goesOn rfl (goesOn reads (goesOn rfl (goesOn rfl rfl)))) ?_)
  exact finish (goesOn rfl (goesOn more (goesOn rfl rfl)))

/-! ### Names -/

section Names

variable {n : String} {rest : List Tree}

theorem isKeyword_name (named : n ∉ keywords) {word : String} (reserved : word ∈ keywords) :
    isKeyword word (Tree.ident n) = false := by
  simp only [isKeyword, Tree.ident, beq_eq_false_iff_ne]
  rintro rfl
  exact named reserved

theorem isName_name (named : n ∉ keywords) : isName (Tree.ident n) = true := by
  simp [isName, Tree.ident, named]

theorem name_name (named : n ∉ keywords) : name (Tree.ident n :: rest) = some (Tree.ident n, rest) := by
  simp [name, takeIf, isName_name named]

theorem peek_name (named : n ∉ keywords) : peek .name (Tree.ident n :: rest) = some (true, Tree.ident n :: rest) := by
  have seen : sees .name (Tree.ident n :: rest) = true := isName_name named
  exact congrArg (fun seen => some (seen, Tree.ident n :: rest)) seen

theorem peekKeyword_name (named : n ∉ keywords) (word : String) (rest : List Tree) (reserved : word ∈ keywords) :
    peekKeyword word (Tree.ident n :: rest) = some (false, Tree.ident n :: rest) :=
  congrArg (fun seen => some (seen, Tree.ident n :: rest)) (isKeyword_name named reserved)

theorem peekKeywords_name (named : n ∉ keywords) (words : List String) (rest : List Tree)
    (reserved : ∀ word ∈ words, word ∈ keywords) :
    peekKeywords words (Tree.ident n :: rest) = some (false, Tree.ident n :: rest) := by
  have none : (words.any fun word => sees (.keyword word) (Tree.ident n :: rest)) = false :=
    List.any_eq_false.mpr fun word member => by simp [sees, isKeyword_name named (reserved word member)]
  exact congrArg (fun seen => some (seen, Tree.ident n :: rest)) none

theorem keyword?_name (named : n ∉ keywords) (word : String) (rest : List Tree) (reserved : word ∈ keywords) :
    keyword? word (Tree.ident n :: rest) = some (.absent, Tree.ident n :: rest) := by
  have other : keyword word (Tree.ident n :: rest) = none := by
    simp [keyword, takeIf, isKeyword_name named reserved]
  have missing : maybe (keyword word) (Tree.ident n :: rest) = some (none, Tree.ident n :: rest) := by
    simp only [maybe, other]
  exact goesOn missing rfl

end Names

end Parse

namespace Grammar
open Parse

variable {n : String} {after : List Tree}

/-! ### Paths of names -/

theorem segment_name (named : n ∉ keywords) (g : Grammar) (inExpr : Bool) (after : List Tree)
    (closed : sees (.op "<") after = false)
    (ends : (sees (.op "::") after && sees (.op "<") (after.drop 2)) = false) :
    segment g inExpr (Tree.ident n :: after) = some (.node .segment [Tree.ident n], after) := by
  have plain := peekKeywords_name named ["super", "self", "crate", "try"] after (by decide)
  have other := peekKeyword_name named "Self" after (by decide)
  have angle : peekOp "<" after = some (false, after) := congrArg (fun seen => some (seen, after)) closed
  refine goesOn plain (goesOn other (goesOn (name_name named) ?_))
  cases inExpr
  all_goals
    refine goesOn angle (goesOn rfl (goesOn rfl (goesOn rfl (goesOn rfl ?_))))
    rw [if_neg]
    · rfl
    · simpa [sees] using ends

theorem moreSegments_none (g : Grammar) (inExpr : Bool) (ends : sees (.op "::") after = false) :
    moreSegments g inExpr after = some ([], after) := by
  have seen : peekOp "::" after = some (false, after) := congrArg (fun seen => some (seen, after)) ends
  exact oneRound (goesOn seen (goesOn rfl rfl))

theorem pathRule_name (named : n ∉ keywords) (g : Grammar) (inExpr : Bool) (closed : sees (.op "<") after = false)
    (ends : sees (.op "::") after = false) :
    pathRule g inExpr (Tree.ident n :: after) = some (Tree.plainPath [n], after) := by
  have first := segment_name named g inExpr after closed (by rw [ends]; rfl)
  exact goesOn rfl (goesOn first (goesOn (moreSegments_none g inExpr ends) rfl))

/-! ### Types of names -/

/-- A trait as the only bound of a trait object, in front of the bracket that closes a list of arguments. -/
theorem traitBound_name (named : n ∉ keywords) (level : Nat) :
    traitBound (bounded (level + 1)) (Tree.ident n :: Tree.punct ">" :: after) =
      some ([.absent, .absent, .absent, Tree.plainPath [n]], Tree.punct ">" :: after) := by
  have lifetimes : ifSees (.keyword "for") (binder (bounded (level + 1))) (Tree.ident n :: Tree.punct ">" :: after) =
      some (.absent, Tree.ident n :: Tree.punct ">" :: after) :=
    goesOn (peekKeyword_name named _ _ (by decide)) rfl
  have const : constness (Tree.ident n :: Tree.punct ">" :: after) =
      some (.absent, Tree.ident n :: Tree.punct ">" :: after) :=
    goesOn rfl (keyword?_name named _ _ (by decide))
  have path : (bounded (level + 1)).path false (Tree.ident n :: Tree.punct ">" :: after) = _ :=
    pathRule_name named (bounded level) false rfl rfl
  exact goesOn lifetimes (goesOn const (goesOn rfl (goesOn path (goesOn rfl rfl))))

/-- The type of a trait object with a single bound. -/
def objectType (contract : String) : Tree :=
  .node .typeObject [Tree.ident "dyn", .node .traitBound [.absent, .absent, Tree.plainPath [contract]]]

theorem typeRule_object (named : n ∉ keywords) (level : Nat) :
    typeRule (bounded (level + 1)) true (Tree.ident "dyn" :: Tree.ident n :: Tree.punct ">" :: after) =
      some (objectType n, Tree.punct ">" :: after) := by
  have other := peekKeyword_name named "use" (Tree.punct ">" :: after) (by decide)
  have one : bound (bounded (level + 1)) false false (Tree.ident n :: Tree.punct ">" :: after) = _ :=
    goesOn rfl (goesOn other (goesOn rfl (goesOn rfl (goesOn (traitBound_name named level) rfl))))
  have bounds : objectBounds (bounded (level + 1)) true false false (Tree.ident n :: Tree.punct ">" :: after) = _ :=
    goesOn (oneRound (goesOn one (goesOn rfl rfl))) rfl
  iterate 10 refine goesOn rfl ?_
  exact goesOn bounds rfl

/-- A trait object as the only argument. -/
theorem genericArguments_object (named : n ∉ keywords) (level : Nat) (after : List Tree) :
    genericArguments (bounded (level + 2))
        (Tree.punct "<" :: Tree.ident "dyn" :: Tree.ident n :: Tree.punct ">" :: after) =
      some (.node .genericArguments [.absent, Tree.punct "<", objectType n, Tree.punct ">"], after) := by
  have type : (bounded (level + 2)).type true (Tree.ident "dyn" :: Tree.ident n :: Tree.punct ">" :: after) = _ :=
    typeRule_object named level
  have argument : genericArgument (bounded (level + 2))
      (Tree.ident "dyn" :: Tree.ident n :: Tree.punct ">" :: after) = some (objectType n, Tree.punct ">" :: after) :=
    goesOn rfl (goesOn rfl (goesOn rfl (goesOn rfl (goesOn type rfl))))
  exact goesOn rfl (goesOn rfl (goesOn (oneRound (goesOn rfl (goesOn argument (goesOn rfl rfl)))) rfl))

/-- The type that an implementation is for, in front of its members. -/
theorem typeRule_name (named : n ∉ keywords) (level : Nat) {members : List Tree} :
    typeRule (bounded (level + 1)) true [Tree.ident n, Tree.group .brace members] =
      some (Tree.namedType [n], [Tree.group .brace members]) := by
  have binder : ifSees (.keyword "for") (binder (bounded (level + 1))) [Tree.ident n, Tree.group .brace members] =
      some (.absent, [Tree.ident n, Tree.group .brace members]) :=
    goesOn (peekKeyword_name named _ _ (by decide)) rfl
  have words := peekKeywords_name named ["fn", "unsafe", "extern"] [Tree.group .brace members] (by decide)
  have begins : seesPathWord [Tree.ident n, Tree.group .brace members] =
      some (true, [Tree.ident n, Tree.group .brace members]) :=
    goesOn (peek_name named) rfl
  have path : (bounded (level + 1)).path false [Tree.ident n, Tree.group .brace members] = _ :=
    pathRule_name named (bounded level) false rfl rfl
  have type : typePath (bounded (level + 1)) [Tree.ident n, Tree.group .brace members] = _ :=
    goesOn (goesOn rfl path) (goesOn (oneRound (goesOn rfl rfl)) rfl)
  exact goesOn binder (goesOn rfl (goesOn words (goesOn begins (goesOn rfl (goesOn rfl (goesOn type rfl))))))

end Grammar

namespace Tree

/-! ### What is read again as it stands -/

mutual

/-- Whether a tree is already what a lexer gives: a token, or a group of such. -/
def isLexed : Tree → Bool
  | .token (.punct text _) => text.toList.length == 1
  | .token _ => true
  | .node (.group _) children => isLexedAll children
  | .node _ _ => false

def isLexedAll : List Tree → Bool
  | [] => true
  | tree :: rest => isLexed tree && isLexedAll rest

end

theorem isLexedAll_eq_all (trees : List Tree) : isLexedAll trees = trees.all isLexed := by
  induction trees with
  | nil => rfl
  | cons first rest ih => simp [isLexedAll, ih]

theorem isLexedAll_append (left right : List Tree) :
    isLexedAll (left ++ right) = (isLexedAll left && isLexedAll right) := by
  rw [isLexedAll_eq_all, isLexedAll_eq_all, isLexedAll_eq_all, List.all_append]

theorem lexed_token {t : Token} (lexed : (Tree.token t).isLexed = true) : (Tree.token t).lexed = [.token t] := by
  cases t with
  | punct text joint =>
      obtain ⟨c, single⟩ := List.length_eq_one_iff.mp (beq_iff_eq.mp lexed)
      have text : text = String.singleton c := by rw [← String.toList_inj, single, String.toList_singleton]
      rw [Tree.lexed, single, text]
      rfl
  | _ => rfl

theorem lexedAll_eq_flatMap (trees : List Tree) : lexedAll trees = trees.flatMap lexed := by
  induction trees with
  | nil => rfl
  | cons first rest ih => simp [lexedAll, ih]

theorem enclosedAll_fixed {trees : List Tree} (fixed : ∀ tree ∈ trees, ∀ context, enclosed context tree = tree)
    (context : OperandContext) (kind : Kind) (index : Nat) : enclosedAll context kind index trees = trees := by
  induction trees generalizing index with
  | nil => rfl
  | cons first rest ih =>
      rw [enclosedAll, fixed first List.mem_cons_self, ih fun tree member => fixed tree (List.mem_cons_of_mem _ member)]

/-- What a lexer gives is in canonical form, and is cut into itself. -/
theorem fixed_of_isLexed {tree : Tree} (lexed : tree.isLexed = true) :
    tree.normal = tree ∧ (∀ context, enclosed context tree = tree) ∧ tree.lexed = [tree] := by
  induction tree using Tree.byChildren with
  | token t => exact ⟨rfl, fun _ => rfl, lexed_token lexed⟩
  | node kind children ih =>
      cases kind with
      | group d =>
          rw [isLexed, isLexedAll_eq_all, List.all_eq_true] at lexed
          have below := fun child member => ih child member (lexed child member)
          have normal : children.map normal = children :=
            (List.map_congr_left fun child member => (below child member).1).trans (List.map_id children)
          have parts : lexedAll children = children := by
            rw [lexedAll_eq_flatMap, List.flatMap_congr fun child member => (below child member).2.2]
            exact List.flatMap_singleton' children
          have read : Kind.group d ≠ .unread := nofun
          have reread : Kind.group d ≠ .arguments := nofun
          have other : Kind.group d ≠ .closure := nofun
          refine ⟨?_, fun context => ?_, ?_⟩
          · rw [normal_node read reread, normal]
            exact normalNode_fixed (.inl rfl) children
          · rw [enclosed_other read reread other, enclosedAll_fixed fun child member => (below child member).2.1]
            exact if_neg (by simp [isBareBlock])
          · rw [Tree.lexed, parts]
            rfl
      | _ => cases lexed

theorem canonicalAll_lexed {trees : List Tree} (lexed : isLexedAll trees = true) :
    lexedAll (canonicalAll trees) = trees := by
  rw [isLexedAll_eq_all, List.all_eq_true] at lexed
  have fixed := fun tree member => fixed_of_isLexed (lexed tree member)
  rw [canonicalAll, lexedAll_eq_flatMap, List.flatMap_map]
  have alone : ∀ tree ∈ trees, tree.canonical.lexed = [tree] := by
    intro tree member
    obtain ⟨normal, enclosed, lexed⟩ := fixed tree member
    rw [canonical, normal, enclosed, lexed]
  rw [List.flatMap_congr alone, List.flatMap_singleton']

/-- What is as a lexer gives it is read again as it stands, at a level as high as its size asks for. -/
theorem rereads_of_takes {rule : Grammar → Parse Tree} {trees : List Tree} (lexed : isLexedAll trees = true)
    (least : Nat) (enough : least ≤ 4 * sizeAll trees + 8)
    (takes : ∀ more, Parse.Takes (rule (Grammar.bounded (more + least))) trees []) : rereads rule trees = true := by
  obtain ⟨more, level⟩ := Nat.exists_eq_add_of_le' enough
  obtain ⟨tree, reads⟩ := takes more
  rw [rereads, canonicalAll_lexed lexed, Grammar.readAll, Grammar.forTrees, level, Parse.complete, reads]
  rfl

end Tree
end TestDouble
