import TestDouble.Proofs.Site.Location
import TestDouble.Proofs.Source.Plain
/-!
# Which configuration is recorded

Of the configurations of a method the one that is found last is recorded, and an expression is found before its parts.
In the source, though, the name of a configuring call stands behind its receiver. So in a chain of configurations the
first one is recorded; only where none stands in the receiver of the one that is written last is it that one.
-/

namespace TestDouble

/-! ### Where the tokens of a part stand -/

namespace Kind

def opening : Kind → List Token
  | .group d => [.opening d]
  | _ => []

def closing : Kind → List Token
  | .group d => [.closing d]
  | _ => []

end Kind

namespace Tree

theorem tokens_enclosed (kind : Kind) (children : List Tree) :
    (node kind children).tokens = kind.opening ++ tokensAll children ++ kind.closing := by
  cases kind
  case group d => rfl
  all_goals exact (List.append_nil _).symm

/-- How many tokens of a tree stand in front of its part at a position. -/
def offset : Tree → Position → Nat
  | _, [] => 0
  | .token _, _ :: _ => 0
  | .node kind children, index :: rest =>
    kind.opening.length + (tokensAll (children.take index)).length +
      (children[index]?.map fun child => child.offset rest).getD 0

theorem offset_nil (tree : Tree) : tree.offset [] = 0 := by
  cases tree <;> rfl

theorem offset_child {kind : Kind} {children : List Tree} {index : Nat} {child : Tree}
    (member : children[index]? = some child) (rest : Position) :
    (node kind children).offset (index :: rest) =
      kind.opening.length + (tokensAll (children.take index)).length + child.offset rest := by
  rw [offset, member]
  rfl

theorem tokensAll_take_succ {children : List Tree} {index : Nat} {child : Tree}
    (member : children[index]? = some child) :
    tokensAll (children.take (index + 1)) = tokensAll (children.take index) ++ child.tokens := by
  rw [List.take_add_one, member, tokensAll_append]
  exact congrArg _ (List.append_nil _)

theorem length_tokensAll_take_mono (children : List Tree) {index next : Nat} (less : index ≤ next) :
    (tokensAll (children.take index)).length ≤ (tokensAll (children.take next)).length := by
  obtain ⟨more, rfl⟩ := Nat.exists_eq_add_of_le less
  rw [List.take_add, tokensAll_append, List.length_append]
  exact Nat.le_add_right _ _

/-- The tokens of a part stand together, behind as many others as its offset says. -/
theorem tokens_at? {tree part : Tree} {position : Position} (found : tree.at? position = some part) :
    ∃ front behind, tree.tokens = front ++ part.tokens ++ behind ∧ front.length = tree.offset position := by
  induction position generalizing tree with
  | nil =>
      cases found
      exact ⟨[], [], (List.append_nil _).symm, part.offset_nil.symm⟩
  | cons index rest ih =>
      cases tree with
      | token t => cases found
      | node kind children =>
          obtain ⟨child, member, below⟩ := at?_child.mp found
          obtain ⟨front, behind, same, length⟩ := ih below
          have split : children = children.take index ++ child :: children.drop (index + 1) := by
            obtain ⟨inside, own⟩ := List.getElem?_eq_some_iff.mp member
            rw [← own, List.getElem_cons_drop, List.take_append_drop]
          refine ⟨kind.opening ++ tokensAll (children.take index) ++ front,
            behind ++ tokensAll (children.drop (index + 1)) ++ kind.closing, ?_, ?_⟩
          · have whole : tokensAll children =
                tokensAll (children.take index) ++ (child.tokens ++ tokensAll (children.drop (index + 1))) := by
              conv_lhs => rw [split, tokensAll_append, tokensAll]
            rw [tokens_enclosed, whole, same]
            simp only [List.append_assoc]
          · rw [offset_child member, ← length, List.length_append, List.length_append]

theorem offset_add_le {tree part : Tree} {position : Position} (found : tree.at? position = some part) :
    tree.offset position + part.tokens.length ≤ tree.tokens.length := by
  obtain ⟨front, behind, same, length⟩ := tokens_at? found
  rw [same, ← length, List.length_append, List.length_append]
  exact Nat.le_add_right _ _

/-- A part in an earlier child ends before one in a later child begins. -/
theorem offset_apart {kind : Kind} {children : List Tree} {index next : Nat} (less : index < next) {part : Tree}
    {rest : Position} (found : (node kind children).at? (index :: rest) = some part) (other : Position) :
    (node kind children).offset (index :: rest) + part.tokens.length ≤ (node kind children).offset (next :: other) := by
  obtain ⟨child, member, below⟩ := at?_child.mp found
  calc (node kind children).offset (index :: rest) + part.tokens.length
    _ = kind.opening.length + (tokensAll (children.take index)).length + (child.offset rest + part.tokens.length) := by
        rw [offset_child member, Nat.add_assoc]
    _ ≤ kind.opening.length + (tokensAll (children.take index)).length + child.tokens.length :=
        Nat.add_le_add_left (offset_add_le below) _
    _ = kind.opening.length + (tokensAll (children.take (index + 1))).length := by
        rw [tokensAll_take_succ member, List.length_append, Nat.add_assoc]
    _ ≤ kind.opening.length + (tokensAll (children.take next)).length :=
        Nat.add_le_add_left (length_tokensAll_take_mono children less) _
    _ ≤ (node kind children).offset (next :: other) := Nat.le_add_right _ _

theorem at?_append {tree part : Tree} {position : Position} (found : tree.at? position = some part) (rest : Position) :
    tree.at? (position ++ rest) = part.at? rest := by
  induction position generalizing tree with
  | nil =>
      cases found
      rfl
  | cons index more ih =>
      cases tree with
      | token t => cases found
      | node kind children =>
          obtain ⟨child, member, below⟩ := at?_child.mp found
          show (children[index]?.bind fun child => child.at? (more ++ rest)) = _
          rw [member]
          exact ih below

end Tree

/-! ### Calls of methods in the source -/

/-- A position leads into what stands in front of the name of the method that is called at another one. -/
def Position.InFront (position other : Position) : Prop :=
  ∃ index rest, index < 3 ∧ other = position ++ index :: rest

theorem Position.inFront_cons {index : Nat} {position other : Position} :
    Position.InFront (index :: position) (index :: other) ↔ Position.InFront position other := by
  constructor
  · rintro ⟨next, rest, less, same⟩
    exact ⟨next, rest, less, (List.cons.inj same).2⟩
  · rintro ⟨next, rest, less, rfl⟩
    exact ⟨next, rest, less, rfl⟩

/-- Where the name of the method stands that is called at a position, by the tokens in front of it. -/
def Tree.nameOffset (tree : Tree) (position : Position) : Nat := tree.offset (position ++ [3])

namespace Tree

variable {tree part : Tree} {position other : Position} {call : MethodCall}

theorem at?_name (viewed : part.asMethodCall? = some call) : part.at? [3] = some (ident call.name) := by
  obtain ⟨attributes, dot, generics, rfl⟩ := asMethodCall?_iff.mp viewed
  rfl

theorem at?_method (found : tree.at? position = some part) (viewed : part.asMethodCall? = some call) :
    tree.at? (position ++ [3]) = some (ident call.name) :=
  (at?_append found [3]).trans (at?_name viewed)

theorem token_apart {kind : Kind} {children : List Tree} {index next : Nat} (less : index < next) {t : Token}
    {rest : Position} (found : (node kind children).at? (index :: rest) = some (.token t)) (behind : Position) :
    (node kind children).offset (index :: rest) < (node kind children).offset (next :: behind) :=
  offset_apart less found behind

theorem tokens_method_pos (viewed : part.asMethodCall? = some call) : 0 < part.tokens.length :=
  Nat.lt_of_lt_of_le (Nat.succ_pos _) (offset_add_le (at?_name viewed))

/-- A call that stands inside another one does so in front of its name or behind it. -/
theorem offset_inside {later : Tree} {another : MethodCall} {index : Nat} {rest : Position}
    (viewed : part.asMethodCall? = some call) (behind : part.at? (index :: rest) = some later)
    (also : later.asMethodCall? = some another) :
    (index < 3 ∧ part.offset [] ≤ part.offset (index :: rest) ∧
        part.nameOffset (index :: rest) < part.nameOffset []) ∨
      (3 < index ∧ part.offset [] < part.offset (index :: rest) ∧
        part.nameOffset [] < part.nameOffset (index :: rest)) := by
  have name := at?_name viewed
  cases part with
  | token t => cases viewed
  | node kind children =>
      rcases Nat.lt_trichotomy index 3 with front | rfl | back
      · have ends : _ < (node kind children).offset [3] := token_apart front (at?_method behind also) []
        exact .inl ⟨front, (node kind children).offset_nil ▸ Nat.zero_le _, ends⟩
      · -- nothing stands in the name itself
        have inside : (ident call.name).at? rest = some later := (at?_append name rest).symm.trans behind
        cases rest with
        | nil =>
            cases inside
            cases also
        | cons _ _ => cases inside
      · have starts := token_apart back name rest
        have ends : (node kind children).offset [3] < _ := token_apart back name (rest ++ [3])
        refine .inr ⟨back, ?_, ends⟩
        rw [offset_nil]
        exact Nat.lt_of_le_of_lt (Nat.zero_le _) starts

/--
Of two calls the one that begins first has its name first as well, unless the other one stands in its receiver or in
its attributes: then it begins first or at the same token, and its name comes last.
-/
theorem offset_lex {later : Tree} {another : MethodCall} (before : List.Lex (· < ·) position other)
    (found : tree.at? position = some part) (viewed : part.asMethodCall? = some call)
    (behind : tree.at? other = some later) (also : later.asMethodCall? = some another) :
    (position.InFront other ∧ tree.offset position ≤ tree.offset other ∧
        tree.nameOffset other < tree.nameOffset position) ∨
      (¬ position.InFront other ∧ tree.offset position < tree.offset other ∧
        tree.nameOffset position < tree.nameOffset other) := by
  -- down a common way both offsets grow by the same, so only the place where the ways part matters
  induction before generalizing tree with
  | @nil index rest =>
      cases found
      rcases offset_inside viewed behind also with ⟨front, starts, ends⟩ | ⟨front, starts, ends⟩
      · exact .inl ⟨⟨index, rest, front, rfl⟩, starts, ends⟩
      · refine .inr ⟨?_, starts, ends⟩
        rintro ⟨_, _, less, same⟩
        cases same
        omega
  | @rel index rest next more less =>
      cases tree with
      | token t => cases found
      | node kind children =>
          have starts := offset_apart less found more
          have ends := token_apart less (at?_method found viewed) (more ++ [3])
          refine .inr ⟨?_, ?_, ends⟩
          · rintro ⟨_, _, _, same⟩
            cases same
            exact absurd less (Nat.lt_irrefl _)
          · have some := tokens_method_pos viewed
            omega
  | @cons index rest more _ ih =>
      cases tree with
      | token t => cases found
      | node kind children =>
          obtain ⟨child, member, below⟩ := at?_child.mp found
          obtain ⟨_, sameMember, inside⟩ := at?_child.mp behind
          cases member.symm.trans sameMember
          have shift : ∀ position : Position, (node kind children).offset (index :: position) = _ := offset_child member
          simp only [Position.inFront_cons, nameOffset, List.cons_append, shift, Nat.add_le_add_iff_left, Nat.add_lt_add_iff_left]
          exact ih below inside

end Tree

/-! ### The order of what is found -/

namespace Site

variable {settings : Settings}

/-- That positions stand in the order in which a walk from the outside to the inside comes to them. -/
def Ordered (found : List (Position × Site)) : Prop :=
  found.Pairwise fun one other => List.Lex (· < ·) one.1 other.1

theorem placed_ordered (tree : Tree) : Ordered (placed settings tree) := by
  induction tree using Tree.byChildren with
  | token t => exact .nil
  | node kind children ih =>
      rw [placed]
      split
      · exact .nil
      · refine List.pairwise_append.mpr ⟨?_, ?_, ?_⟩
        · cases ofNode settings (.node kind children) with
          | none => exact .nil
          | some site => exact List.pairwise_singleton _ _
        · rw [placedFrom_eq_numbered]
          exact Position.numbered_pairwise .cons .rel ih 0
        · rintro own outer ⟨position, site⟩ below
          obtain ⟨_, _, rfl⟩ := List.mem_map.mp outer
          obtain ⟨_, _, _, rfl, _⟩ := mem_placedFrom.mp below
          exact .nil

theorem placedFrom_ordered (index : Nat) (trees : List Tree) : Ordered (placedFrom settings index trees) := by
  rw [placedFrom_eq_numbered]
  exact Position.numbered_pairwise .cons .rel (fun tree _ => placed_ordered tree) index

theorem ofNode_configuration {part : Tree} {method : String} {value : Option Tree} :
    ofNode settings part = some (configuration method value) ↔
      ∃ call, part.asMethodCall? = some call ∧ settings.configuredMethod? call = some method ∧
        value = call.arguments.elements.head? := by
  constructor
  · intro found
    unfold ofNode at found
    split at found
    · split at found
      · cases found
      · cases found
    · split at found
      · rename_i call viewed
        obtain ⟨name, configured, same⟩ := Option.map_eq_some_iff.mp found
        cases same
        exact ⟨call, viewed, configured, rfl⟩
      · cases found
  · rintro ⟨call, viewed, configured, rfl⟩
    have other : part.asCall? = none := by
      obtain ⟨attributes, dot, generics, rfl⟩ := Tree.asMethodCall?_iff.mp viewed
      rfl
    simp only [ofNode, other, viewed, configured, Option.map_some]

end Site

namespace Sites

/-- A configuration of a method stands in a body, outside of items in it; children of the body are numbered from one. -/
structure Configures (settings : Settings) (body : Tree) (method : String) (position : Position)
    (argument : Option Tree) : Prop where
  placed : ∃ index rest statement part call, position = (index + 1) :: rest ∧
    body.statements[index]? = some statement ∧ statement.passesItem rest = false ∧ statement.at? rest = some part ∧
    part.asMethodCall? = some call ∧ settings.configuredMethod? call = some method ∧
    argument = call.arguments.elements.head?

/-- The configurations of a method, with their positions, in the order in which they are found. -/
def placedConfigurations (settings : Settings) (body : Tree) (method : String) : List (Position × Option Tree) :=
  (Site.placedFrom settings 1 body.statements).filterMap fun own =>
    match own.2 with
    | .configuration name value => if name = method then some (own.1, value) else none
    | .marker _ => none

variable {settings : Settings} {body : Tree} {method : String} {position : Position} {argument : Option Tree}

theorem mem_placedConfigurations :
    (position, argument) ∈ placedConfigurations settings body method ↔
      Configures settings body method position argument := by
  have found : (position, argument) ∈ placedConfigurations settings body method ↔
      (position, Site.configuration method argument) ∈ Site.placedFrom settings 1 body.statements := by
    rw [placedConfigurations, List.mem_filterMap]
    constructor
    · rintro ⟨⟨position, site⟩, member, own⟩
      split at own
      · split at own
        · rename_i name value same named
          cases own
          cases same
          cases named
          exact member
        · cases own
      · cases own
    · intro member
      exact ⟨_, member, if_pos rfl⟩
  rw [found, Site.mem_placedFrom]
  constructor
  · rintro ⟨index, rest, statement, rfl, statementAt, below⟩
    obtain ⟨free, part, partAt, own⟩ := Site.mem_placed.mp below
    obtain ⟨call, viewed, configured, same⟩ := Site.ofNode_configuration.mp own
    exact ⟨index, rest, statement, part, call, by rw [Nat.add_comm], statementAt, free, partAt, viewed, configured,
      same⟩
  · rintro ⟨index, rest, statement, part, call, rfl, statementAt, free, partAt, viewed, configured, same⟩
    have own := Site.ofNode_configuration.mpr ⟨call, viewed, configured, same⟩
    exact ⟨index, rest, statement, by rw [Nat.add_comm], statementAt, Site.mem_placed.mpr ⟨free, part, partAt, own⟩⟩

theorem position_of_placed {own : Position × Site} {found : Position × Option Tree}
    (same : (match own.2 with
      | .configuration name value => if name = method then some (own.1, value) else none
      | .marker _ => none) = some found) : own.1 = found.1 := by
  split at same
  · split at same
    · cases same
      rfl
    · cases same
  · cases same

theorem placedConfigurations_ordered :
    (placedConfigurations settings body method).Pairwise fun one other => List.Lex (· < ·) one.1 other.1 := by
  refine List.Pairwise.filterMap _ ?_ (Site.placedFrom_ordered 1 body.statements)
  intro one other before found same later also
  rw [← position_of_placed same, ← position_of_placed also]
  exact before

/-- The argument that is recorded is the one found last. -/
theorem configured?_eq :
    (ofBody settings body).configured? method = (placedConfigurations settings body method).getLast?.map Prod.snd := by
  rw [configured?, List.lookup_eq_findSome?, ← List.getLast?_filterMap, configurations, ofBody,
    ← Site.placedFrom_sites 1, List.filterMap_map, List.filterMap_filterMap, placedConfigurations,
    ← List.getLast?_map, List.map_filterMap]
  refine congrArg List.getLast? (List.filterMap_congr fun own _ => ?_)
  obtain ⟨position, site⟩ := own
  cases site with
  | marker call => rfl
  | configuration name value =>
      by_cases named : name = method
      · simp [named]
      · simp [named, Ne.symm named]

theorem Configures.call (configures : Configures settings body method position argument) :
    ∃ part call, body.at? position = some part ∧ part.asMethodCall? = some call := by
  obtain ⟨index, rest, statement, part, call, rfl, statementAt, _, partAt, viewed, _⟩ := configures.placed
  obtain ⟨children, rfl, childAt⟩ := Tree.statement_at statementAt
  exact ⟨part, call, Tree.at?_child.mpr ⟨statement, childAt, partAt⟩, viewed⟩

/-- What stands at a position begins further behind than at another one, or its name comes first of both. -/
def Outlasts (body : Tree) (position other : Position) : Prop :=
  body.offset other < body.offset position ∨
    (body.offset other = body.offset position ∧ body.nameOffset position < body.nameOffset other)

/-- The configuration of a method that begins last and, of those that begin there, has its name first. -/
structure Recorded (settings : Settings) (body : Tree) (method : String) (position : Position)
    (argument : Option Tree) : Prop where
  configures : Configures settings body method position argument
  outlasts : ∀ other value, Configures settings body method other value → other ≠ position →
    Outlasts body position other

/-- The configuration of a method whose own name stands last in the source. -/
structure LastNamed (settings : Settings) (body : Tree) (method : String) (position : Position)
    (argument : Option Tree) : Prop where
  configures : Configures settings body method position argument
  last : ∀ other value, Configures settings body method other value →
    body.nameOffset other ≤ body.nameOffset position

/-- What is found later outlasts what is found before. -/
theorem Configures.offset_lex {other : Position} {value : Option Tree}
    (configures : Configures settings body method position argument)
    (later : Configures settings body method other value) (before : List.Lex (· < ·) position other) :
    Outlasts body other position ∧
      (¬ position.InFront other → body.nameOffset position < body.nameOffset other) := by
  obtain ⟨part, call, found, viewed⟩ := configures.call
  obtain ⟨_, _, behind, also⟩ := later.call
  obtain ⟨front, starts, name⟩ | ⟨_, starts, name⟩ := Tree.offset_lex before found viewed behind also
  · exact ⟨(Nat.lt_or_eq_of_le starts).imp id fun same => ⟨same, name⟩, fun apart => absurd front apart⟩
  · exact ⟨.inl starts, fun _ => name⟩

theorem Outlasts.asymm {other : Position} (outlasts : Outlasts body position other) :
    ¬ Outlasts body other position := by
  unfold Outlasts at *
  omega

theorem Configures.unique {value : Option Tree} (configures : Configures settings body method position argument)
    (again : Configures settings body method position value) : argument = value := by
  obtain ⟨index, rest, statement, part, call, rfl, statementAt, _, partAt, viewed, _, rfl⟩ := configures.placed
  obtain ⟨_, _, _, _, _, same, otherAt, _, alsoAt, also, _, rfl⟩ := again.placed
  cases same
  cases statementAt.symm.trans otherAt
  cases partAt.symm.trans alsoAt
  cases viewed.symm.trans also
  rfl

/-- The last one that is found stands behind all others in the order of the walk. -/
theorem found_last {front : List (Position × Option Tree)}
    (split : placedConfigurations settings body method = front ++ [(position, argument)]) :
    Configures settings body method position argument ∧
      ∀ other value, Configures settings body method other value → other ≠ position →
        List.Lex (· < ·) other position := by
  have configures : Configures settings body method position argument :=
    mem_placedConfigurations.mp (split ▸ List.mem_append_right _ List.mem_cons_self)
  refine ⟨configures, fun other value own different => ?_⟩
  have member := mem_placedConfigurations.mpr own
  have ordered : (placedConfigurations settings body method).Pairwise _ := placedConfigurations_ordered
  rw [split] at member ordered
  rcases List.mem_append.mp member with earlier | same
  · exact (List.pairwise_append.mp ordered).2.2 _ earlier _ List.mem_cons_self
  · cases List.mem_singleton.mp same
    exact absurd rfl different

theorem Configures.exists_last (configures : Configures settings body method position argument) :
    ∃ front last value, placedConfigurations settings body method = front ++ [(last, value)] := by
  have member := mem_placedConfigurations.mpr configures
  obtain ⟨front, ⟨last, value⟩, split⟩ := (List.eq_nil_or_concat _).resolve_left (List.ne_nil_of_mem member)
  exact ⟨front, last, value, split.trans (List.concat_eq_append ..)⟩

/-- The configuration that is found last is the one that is recorded. -/
theorem recorded_iff :
    Recorded settings body method position argument ↔
      (placedConfigurations settings body method).getLast? = some (position, argument) := by
  constructor
  · intro recorded
    obtain ⟨front, last, value, split⟩ := recorded.configures.exists_last
    obtain ⟨configures, behind⟩ := found_last split
    have same : position = last := by
      by_contra different
      have later := (recorded.configures.offset_lex configures (behind _ _ recorded.configures different)).1
      exact later.asymm (recorded.outlasts _ _ configures (Ne.symm different))
    subst same
    rw [split, List.getLast?_concat, recorded.configures.unique configures]
  · intro last
    obtain ⟨front, split⟩ := List.getLast?_eq_some_iff.mp last
    obtain ⟨configures, behind⟩ := found_last split
    exact ⟨configures, fun other value own different =>
      (own.offset_lex configures (behind other value own different)).1⟩

theorem Position.InFront.lex {position other : Position} (front : position.InFront other) :
    List.Lex (· < ·) position other := by
  obtain ⟨index, rest, _, rfl⟩ := front
  induction position with
  | nil => exact .nil
  | cons first more ih => exact .cons ih

/-- The configuration that is written last is the one found last unless another one stands in front of its name. -/
theorem LastNamed.recorded_iff (written : LastNamed settings body method position argument) :
    Recorded settings body method position argument ↔
      ∀ other value, Configures settings body method other value → ¬ position.InFront other := by
  constructor
  · intro recorded other value own front
    have different : other ≠ position := by
      obtain ⟨index, rest, _, rfl⟩ := front
      simp
    exact (recorded.configures.offset_lex own (Position.InFront.lex front)).1.asymm
      (recorded.outlasts other value own different)
  · intro apart
    obtain ⟨front, last, value, split⟩ := written.configures.exists_last
    obtain ⟨configures, behind⟩ := found_last split
    have same : position = last := by
      by_contra different
      have later := (written.configures.offset_lex configures (behind _ _ written.configures different)).2
      exact absurd (written.last _ _ configures) (Nat.not_le_of_lt (later (apart _ _ configures)))
    subst same
    rw [Sites.recorded_iff, split, List.getLast?_concat, written.configures.unique configures]

/--
Of the configurations of a method the one that begins last is recorded, and in a chain of them that begin together the
first one. This is the one that is written last exactly if none stands in front of its name.
-/
theorem configured_recorded (settings : Settings) (body : Tree) (method : String) :
    ((ofBody settings body).configured? method = none ↔
      ∀ position argument, ¬ Configures settings body method position argument) ∧
    (∀ argument, (ofBody settings body).configured? method = some argument ↔
      ∃ position, Recorded settings body method position argument) ∧
    ∀ position argument, LastNamed settings body method position argument →
      (Recorded settings body method position argument ↔
        ∀ other value, Configures settings body method other value → ¬ position.InFront other) := by
  refine ⟨?_, ?_, fun position argument written => written.recorded_iff⟩
  · rw [configured?_eq, Option.map_eq_none_iff, List.getLast?_eq_none_iff, List.eq_nil_iff_forall_not_mem]
    constructor
    · intro none position argument own
      exact none _ (mem_placedConfigurations.mpr own)
    · rintro none ⟨position, argument⟩ member
      exact none position argument (mem_placedConfigurations.mp member)
  · intro argument
    rw [configured?_eq, Option.map_eq_some_iff]
    constructor
    · rintro ⟨⟨position, value⟩, last, rfl⟩
      exact ⟨position, recorded_iff.mpr last⟩
    · rintro ⟨position, recorded⟩
      exact ⟨(position, argument), recorded_iff.mp recorded, rfl⟩

/-- The body `{ x.f().returns(1).f().returns(2); }`. -/
def chained : Tree :=
  let first := Tree.methodCall (Tree.methodCall (Tree.nameExpr ["x"]) "f" []) "returns" [Tree.literalExpr "1"]
  let second := Tree.methodCall (Tree.methodCall first "f" []) "returns" [Tree.literalExpr "2"]
  .node (.group .brace) [Tree.noAttributes, .node .exprStmt [second, Tree.punct ";"]]

theorem chained_records_first :
    chained.flat = "\x7b x . f ( ) . returns ( 1 ) . f ( ) . returns ( 2 ) ; \x7d" ∧
      (ofBody {} chained).configured? "f" = some (some (Tree.literalExpr "1")) ∧
      LastNamed {} chained "f" [1, 0] (some (Tree.literalExpr "2")) ∧ Tree.literalExpr "1" ≠ Tree.literalExpr "2" := by
  have found : placedConfigurations {} chained "f" =
      [([1, 0], some (Tree.literalExpr "2")), ([1, 0, 1, 1], some (Tree.literalExpr "1"))] := rfl
  refine ⟨by decide +kernel, rfl, ⟨mem_placedConfigurations.mp (found ▸ .head _), fun other value own => ?_⟩, ?_⟩
  · have member := mem_placedConfigurations.mpr own
    rw [found] at member
    rcases List.mem_cons.mp member with second | first
    · cases second
      exact Nat.le_refl _
    · cases List.mem_singleton.mp first
      decide
  · exact fun same => absurd (congrArg Tree.tokens same) (by decide)

end Sites

end TestDouble
