import TestDouble.Proofs.Site.Mirrored
/-!
# Trees that binding leaves as they are

A node is settled if it is neither taken away nor bound and all its children are settled. Writing it in canonical
form keeps it settled, and keeps its problems: parts are moved and wrapped, and what is left out holds none. Only
where a lifetime is moved to the front are problems reordered, if there are any in the attributes of the lifetime.
-/

namespace TestDouble

theorem List.flatMap_filter_of_nil {α β : Type} {gather : α → List β} {kept : α → Bool} {list : List α}
    (none : ∀ element ∈ list, kept element = false → gather element = []) :
    (list.filter kept).flatMap gather = list.flatMap gather := by
  induction list with
  | nil => rfl
  | cons first rest ih =>
      obtain ⟨own, later⟩ := List.forall_mem_cons.mp none
      rw [List.filter_cons, List.flatMap_cons, ← ih later]
      cases keeps : kept first with
      | true => rfl
      | false =>
          rw [own keeps]
          rfl

/-- The same problems, and in the same order where this is asked for. -/
structure SameProblems (ordered : Prop) (found known : List Problem) : Prop where
  perm : found.Perm known
  same : ordered → found = known

namespace SameProblems

variable {ordered : Prop} {found known others more : List Problem}

theorem of_eq (same : found = known) : SameProblems ordered found known := ⟨same ▸ .refl _, fun _ => same⟩

theorem trans (first : SameProblems ordered found known) (second : SameProblems ordered known others) :
    SameProblems ordered found others :=
  ⟨first.perm.trans second.perm, fun asked => (first.same asked).trans (second.same asked)⟩

theorem append (first : SameProblems ordered found known) (second : SameProblems ordered others more) :
    SameProblems ordered (found ++ others) (known ++ more) :=
  ⟨first.perm.append second.perm, fun asked => by rw [first.same asked, second.same asked]⟩

theorem eq_nil (none : SameProblems ordered found []) : found = [] := none.perm.eq_nil

theorem flatMap {α β : Type} {before : α → List Problem} {after : β → List Problem} {olds : List α} {news : List β}
    (pairs : List.Forall₂ (fun new old => SameProblems ordered (after new) (before old)) news olds) :
    SameProblems ordered (news.flatMap after) (olds.flatMap before) := by
  induction pairs with
  | nil => exact .of_eq rfl
  | cons first _ ih => exact first.append ih

end SameProblems

namespace Binder
open TestDouble.Tree

variable {binder : Binder} {place : Place} {kind : Kind} {children news olds : List Tree} {ordered : Prop}

/-! ### Problems of one node -/

/-- The problem that binding finds in a node itself. -/
def ownProblems (binder : Binder) (place : Place) (tree : Tree) : List Problem :=
  if binder.settings.marks tree && !place.inTest then [.noSpecification (place.key binder.root)] else []

theorem ownProblems_of_kind (other : kind ≠ .call) : binder.ownProblems place (.node kind children) = [] := by
  refine if_neg fun stray => ?_
  exact other (marks_call (marks_iff.mp (Bool.and_eq_true_iff.mp stray).1)).1

theorem ownProblems_of_mirrors (pairs : List.Forall₂ Mirrors news olds) :
    binder.ownProblems place (.node kind news) = binder.ownProblems place (.node kind olds) := by
  have same : binder.settings.marks (.node kind news) = binder.settings.marks (.node kind olds) := by
    rw [Bool.eq_iff_iff, marks_iff, marks_iff]
    exact marks_of_mirrors pairs
  rw [ownProblems, ownProblems, same]

theorem problems_kept (whole : ¬binder.Erases place (.node kind children))
    (unbound : ¬binder.Binds place (.node kind children)) :
    (binder.bind place (.node kind children)).2 = binder.ownProblems place (.node kind children) ++
      children.flatMap fun child => (binder.bind (place.inside binder.root (.node kind children)) child).2 := by
  have parts : (binder.rebuilt place kind children).2 =
      children.flatMap fun child => (binder.bind (place.inside binder.root (.node kind children)) child).2 :=
    List.flatMap_map _ _ children
  rw [← parts]
  rcases bind_kept whole unbound with ⟨⟨marks, outside⟩, same⟩ | ⟨placed, -, same⟩
  · rw [same, ownProblems, if_pos (by rw [marks_iff.mpr marks, outside]; rfl)]
    rfl
  · rw [same, ownProblems, if_neg]
    · rfl
    · intro stray
      obtain ⟨marks, outside⟩ := Bool.and_eq_true_iff.mp stray
      exact placed ⟨marks_iff.mp marks, Bool.not_eq_true' _ |>.mp outside⟩

/-! ### Settled trees -/

/-- That binding leaves a tree as it is. -/
def Settled (binder : Binder) (place : Place) (tree : Tree) : Prop := (binder.bind place tree).1 = tree

theorem settled_iff (apart : binder.settings.Apart) (other : kind ≠ .arguments) :
    binder.Settled place (.node kind children) ↔ ¬binder.Erases place (.node kind children) ∧
      ¬binder.Binds place (.node kind children) ∧
      ∀ child ∈ children, binder.Settled (place.inside binder.root (.node kind children)) child := by
  have whole_unbound : ¬binder.Erases place (.node kind children) → ¬binder.Binds place (.node kind children) →
      (binder.Settled place (.node kind children) ↔
        ∀ child ∈ children, binder.Settled (place.inside binder.root (.node kind children)) child) := by
    intro whole unbound
    rw [Settled, bind_fst_kept whole unbound other, rebuilt, List.map_map, node.injEq]
    constructor
    · rintro ⟨-, same⟩
      exact List.map_inj_left.mp (same.trans (List.map_id children).symm)
    · exact fun each => ⟨rfl, (List.map_congr_left each).trans (List.map_id children)⟩
  constructor
  · intro settled
    have whole : ¬binder.Erases place (.node kind children) := by
      intro erased
      rw [Settled, bind_erased erased] at settled
      obtain ⟨method, -, -⟩ := erased
      cases method
      cases settled
    have unbound : ¬binder.Binds place (.node kind children) := by
      intro binds
      have marks := marks_iff.mpr binds.1
      obtain ⟨rfl, attributes, callee, arguments, rfl, -⟩ := marks_call binds.1
      obtain ⟨key, own, segments, last, -, -, -, -, same⟩ := bind_of_binds binds
      rw [Settled, same] at settled
      rw [← settled, marks_boundCall apart] at marks
      cases marks
    exact ⟨whole, unbound, (whole_unbound whole unbound).mp settled⟩
  · rintro ⟨whole, unbound, each⟩
    exact (whole_unbound whole unbound).mpr each

/-- Nodes that are no items, no sites and no arguments of an invocation. -/
theorem settled_plain (apart : binder.settings.Apart) (other : isRebound kind = false) (free : Site.isItem kind = false) :
    binder.Settled place (.node kind children) ↔ ∀ child ∈ children, binder.Settled place child := by
  have none : ¬binder.Erases place (.node kind children) ∧ ¬binder.Binds place (.node kind children) := by
    refine ⟨fun erased => ?_, fun binds => ?_⟩
    · cases erased.1
      cases other
    · cases (marks_call binds.1).1
      cases other
  rw [settled_iff apart, Place.inside_of_not_item free]
  · exact ⟨fun parts => parts.2.2, fun each => ⟨none.1, none.2, each⟩⟩
  · rintro rfl
    cases other

theorem problems_plain (other : isRebound kind = false) (free : Site.isItem kind = false) :
    (binder.bind place (.node kind children)).2 = children.flatMap fun child => (binder.bind place child).2 := by
  rw [problems_kept, ownProblems_of_kind, List.nil_append, Place.inside_of_not_item free]
  · rintro rfl
    cases other
  · intro erased
    cases erased.1
    cases other
  · intro binds
    cases (marks_call binds.1).1
    cases other

/-- That a settled tree may take the place of another one, and has the problems that are known. -/
structure Replaces (binder : Binder) (ordered : Prop) (place : Place) (known : List Problem) (new old : Tree) : Prop where
  shows : Shows new old
  mirrors : Mirrors new old
  settled : binder.Settled place new
  problems : SameProblems ordered (binder.bind place new).2 known

/-- A node whose children give way to settled ones is settled, unless it is taken away or bound. -/
theorem settled_of_pairs (apart : binder.settings.Apart) (other : kind ≠ .arguments)
    (whole : ¬binder.Erases place (.node kind olds)) (unbound : ¬binder.Binds place (.node kind olds))
    {known : Tree → List Problem}
    (pairs : List.Forall₂ (fun new old =>
      binder.Replaces ordered (place.inside binder.root (.node kind olds)) (known old) new old) news olds) :
    ¬binder.Erases place (.node kind news) ∧ ¬binder.Binds place (.node kind news) ∧
      binder.Settled place (.node kind news) ∧
      SameProblems ordered (binder.bind place (.node kind news)).2
        (binder.ownProblems place (.node kind olds) ++ olds.flatMap known) := by
  have mirrors : List.Forall₂ Mirrors news olds := pairs.imp fun _ _ replaces => replaces.mirrors
  have inside := inside_of_mirrors mirrors binder.root place kind
  have still : ¬binder.Erases place (.node kind news) := by
    rintro ⟨method, test, configuration⟩
    cases method
    exact whole ⟨rfl, test, isConfiguration_of_shows (pairs.imp fun _ _ replaces => replaces.shows) configuration⟩
  have free : ¬binder.Binds place (.node kind news) :=
    fun binds => unbound ⟨(marks_of_mirrors mirrors).mp binds.1, binds.2⟩
  have each : ∀ new ∈ news, binder.Settled (place.inside binder.root (.node kind olds)) new :=
    ((List.forall₂_and_left _ _).mp (pairs.imp fun _ _ replaces => ⟨replaces.settled, replaces⟩)).1
  refine ⟨still, free, (settled_iff apart other).mpr ⟨still, free, by rwa [inside]⟩, ?_⟩
  rw [problems_kept still free, ownProblems_of_mirrors mirrors, inside]
  exact .append (.of_eq rfl) (.flatMap (pairs.imp fun _ _ replaces => replaces.problems))

/-! ### Canonical form of one node -/

end Binder

namespace Tree

/-- The children of a node that canonical form may leave out or write more than once. -/
def spare : Kind → List Tree → List Tree
  | .generics, children => if children.length ≤ 2 then children else []
  | .bounds, [one] => [one]
  | .whereClause, [one] => [one]
  | .callArguments, lead :: _ => [lead]
  | .field, [_, _, dot, _] => [dot]
  | .variant, _ :: visibility :: _ => [visibility]
  | _, _ => []

/-! ### What is gathered from elements -/

theorem commas_of_pairs {elements : List Tree} {pair : Tree × Option Tree} (member : pair ∈ commaPairs elements) :
    ∀ comma ∈ pair.2, ∃ t, comma = .token t := by
  fun_induction commaPairs elements with
  | case1 => cases member
  | case2 element =>
      cases List.mem_singleton.mp member
      simp
  | case3 element next rest comma ih =>
      rcases List.mem_cons.mp member with rfl | later
      · rintro _ ⟨⟩
        obtain ⟨joint, rfl⟩ := token_of_isPunct comma
        exact ⟨_, rfl⟩
      · exact ih later
  | case4 element next rest other ih =>
      rcases List.mem_cons.mp member with rfl | later
      · simp
      · exact ih later

section
variable {α : Type} {gather : Tree → List α} (tokens : ∀ t, gather (.token t) = [])
include tokens

/-- From pairs is gathered what is gathered from their elements if nothing is from commas. -/
theorem flatMap_ofPairs {elements : List Tree} {pairs : List (Tree × Option Tree)} (inside : pairs ⊆ commaPairs elements) :
    (ofPairs pairs).flatMap gather = pairs.flatMap fun pair => gather pair.1 := by
  rw [ofPairs, List.flatMap_assoc]
  refine List.flatMap_congr fun pair member => ?_
  obtain ⟨element, comma⟩ := pair
  cases comma with
  | none => exact List.append_nil _
  | some comma =>
      obtain ⟨t, rfl⟩ := commas_of_pairs (inside member) comma rfl
      simp [tokens]

/-- Where the lifetimes stand does not matter to what is gathered if nothing is from them. -/
theorem flatMap_lifetimesFirst {elements : List Tree}
    (none : ∀ part ∈ elements, part.isLifetime = true → gather part = []) :
    (lifetimesFirst elements).flatMap gather = elements.flatMap gather := by
  have silent : ∀ pair ∈ commaPairs elements, pair.1.isLifetime = true → gather pair.1 = [] := by
    intro pair member lifetime
    refine none pair.1 ?_ lifetime
    rw [← ofPairs_commaPairs elements]
    exact List.mem_flatMap.mpr ⟨pair, member, List.mem_cons_self⟩
  have first : ((commaPairs elements).filter fun pair => pair.1.isLifetime).flatMap (fun pair => gather pair.1) = [] := by
    refine List.flatMap_eq_nil_iff.mpr fun pair member => ?_
    obtain ⟨inside, lifetime⟩ := List.mem_filter.mp member
    exact silent pair inside lifetime
  have others : ((commaPairs elements).filter fun pair => !pair.1.isLifetime).flatMap (fun pair => gather pair.1) =
      elements.flatMap gather := by
    rw [List.flatMap_filter_of_nil, ← flatMap_ofPairs tokens (List.Subset.refl _), ofPairs_commaPairs]
    exact fun pair member lifetime => silent pair member (Bool.not_eq_false' _ |>.mp lifetime)
  unfold lifetimesFirst
  dsimp only
  rw [List.flatMap_append, List.flatMap_append, flatMap_ofPairs tokens (List.filter_subset_self _), first,
    flatMap_ofPairs tokens (List.filter_subset_self _), others]
  split <;> simp [punct, tokens]

end

end Tree

namespace Binder
open TestDouble.Tree

variable {binder : Binder} {place : Place} {kind : Kind} {children news olds : List Tree} {ordered : Prop}

theorem problems_fieldName (tree : Tree) : (binder.bind place tree.fieldName).2 = (binder.bind place tree).2 := by
  unfold fieldName
  split
  · split <;> rfl
  · rfl

theorem settled_fieldName {tree : Tree} (settled : binder.Settled place tree) : binder.Settled place tree.fieldName := by
  unfold fieldName
  split
  · split <;> rfl
  · exact settled

/-- The problems of a list of elements do not depend on where the lifetimes stand if these have none. -/
theorem problems_lifetimesFirst {elements : List Tree}
    (order : ordered → ∀ part ∈ elements, part.isLifetime = true → (binder.bind place part).2 = []) :
    SameProblems ordered ((lifetimesFirst elements).flatMap fun part => (binder.bind place part).2)
      (elements.flatMap fun part => (binder.bind place part).2) := by
  constructor
  · obtain ⟨gap, shape, moved⟩ := lifetimesFirst_perm elements
    have same := moved.flatMap_right fun part => (binder.bind place part).2
    rcases shape with rfl | rfl
    · exact same
    · exact same
  · exact fun asked => flatMap_lifetimesFirst (fun _ => rfl) (order asked)

theorem settled_bracketed (front : List Tree) {rest : List Tree}
    (settled : ∀ child ∈ front ++ rest, binder.Settled place child)
    (order : ordered → ∀ child ∈ front ++ rest, child.isLifetime = true → (binder.bind place child).2 = []) :
    (∀ part ∈ front ++ lifetimesFirst rest.dropLast ++ rest.getLast?.toList, binder.Settled place part) ∧
      SameProblems ordered
        ((front ++ lifetimesFirst rest.dropLast ++ rest.getLast?.toList).flatMap fun part => (binder.bind place part).2)
        ((front ++ rest).flatMap fun part => (binder.bind place part).2) := by
  constructor
  · intro part member
    obtain ⟨gap, shape, moved⟩ := lifetimesFirst_dropLast_perm front rest
    rcases List.mem_append.mp (moved.mem_iff.mp member) with added | inside
    · rcases shape with rfl | rfl
      · cases added
      · cases List.mem_singleton.mp added
        rfl
    · exact settled part inside
  · have inner : SameProblems ordered ((lifetimesFirst rest.dropLast).flatMap fun part => (binder.bind place part).2)
        (rest.dropLast.flatMap fun part => (binder.bind place part).2) :=
      problems_lifetimesFirst fun asked part member =>
        order asked part (List.mem_append_right _ (List.mem_of_mem_dropLast member))
    conv => arg 3; rw [← dropLast_append_last rest]
    simp only [List.flatMap_append, List.append_assoc]
    exact .append (.of_eq rfl) (.append inner (.of_eq rfl))

theorem settled_parenthesized (apart : binder.settings.Apart) {attributes : List Tree} {inner : Tree} :
    (binder.Settled place (parenthesized attributes inner) ↔
      (∀ child ∈ attributes, binder.Settled place child) ∧ binder.Settled place inner) ∧
      (binder.bind place (parenthesized attributes inner)).2 =
        attributes.flatMap (fun child => (binder.bind place child).2) ++ (binder.bind place inner).2 := by
  unfold parenthesized group
  constructor
  · simp (disch := decide) only [settled_plain apart, List.forall_mem_cons, List.not_mem_nil, false_implies,
      implies_true, and_true]
  · simp (disch := decide) only [problems_plain, List.flatMap_cons, List.flatMap_nil, List.append_nil]

theorem settled_other (apart : binder.settings.Apart) {other : Kind} {parts : List Tree}
    (plain : isRebound kind = false) (free : Site.isItem kind = false) (still : isRebound other = false)
    (outside : Site.isItem other = false)
    (changed : (∀ part ∈ parts, binder.Settled place part) ∧
      SameProblems ordered (parts.flatMap fun part => (binder.bind place part).2)
        (children.flatMap fun part => (binder.bind place part).2)) :
    binder.Settled place (.node other parts) ∧
      SameProblems ordered (binder.bind place (.node other parts)).2 (binder.bind place (.node kind children)).2 := by
  rw [settled_plain apart still outside, problems_plain still outside, problems_plain plain free]
  exact changed

/-- A range with attributes is written in parentheses that take the attributes. -/
theorem settled_range (apart : binder.settings.Apart) {attributes rest : List Tree}
    (settled : ∀ child ∈ Tree.node .attributes attributes :: rest, binder.Settled place child) :
    binder.Settled place (parenthesized attributes (.node .range (.node .attributes [] :: rest))) ∧
      (binder.bind place (parenthesized attributes (.node .range (.node .attributes [] :: rest)))).2 =
        (binder.bind place (.node .range (.node .attributes attributes :: rest))).2 := by
  obtain ⟨outer, later⟩ := List.forall_mem_cons.mp settled
  rw [settled_plain apart rfl rfl] at outer
  have empty : binder.Settled place (.node .attributes []) := rfl
  have inner : binder.Settled place (.node .range (.node .attributes [] :: rest)) :=
    (settled_plain apart rfl rfl).mpr (List.forall_mem_cons.mpr ⟨empty, later⟩)
  refine ⟨(settled_parenthesized apart).1.mpr ⟨outer, inner⟩, ?_⟩
  simp (disch := decide) only [(settled_parenthesized apart).2, problems_plain, List.flatMap_cons, List.flatMap_nil,
    List.nil_append]

theorem settled_numberFields {dot : Tree} (settled : binder.Settled place dot)
    (nothing : (binder.bind place dot).2 = []) (spelling : String) :
    (∀ part ∈ numberFields dot spelling, binder.Settled place part) ∧
      (numberFields dot spelling).flatMap (fun part => (binder.bind place part).2) = [] := by
  have each : ∀ part ∈ numberFields dot spelling, binder.Settled place part ∧ (binder.bind place part).2 = [] := by
    intro part member
    rcases mem_numberFields member with rfl | ⟨text, rfl⟩
    · exact ⟨settled, nothing⟩
    · exact ⟨rfl, rfl⟩
  exact ⟨fun part member => (each part member).1, List.flatMap_eq_nil_iff.mpr fun part member => (each part member).2⟩

/-- What canonical form makes of a settled node is settled, and has the same problems. -/
theorem normalNode_settled (apart : binder.settings.Apart) (settled : binder.Settled place (.node kind children))
    (left : ∀ part ∈ spare kind children,
      (binder.bind (place.inside binder.root (.node kind children)) part).2 = [])
    (order : ordered → ∀ child ∈ children, child.isLifetime = true →
      (binder.bind (place.inside binder.root (.node kind children)) child).2 = []) :
    binder.Settled place (normalNode kind children) ∧
      SameProblems ordered (binder.bind place (normalNode kind children)).2
        (binder.bind place (.node kind children)).2 := by
  fun_cases normalNode kind children
  case case17 => exact ⟨settled, .of_eq rfl⟩
  all_goals
    rw [settled_plain apart rfl rfl] at settled
    rw [Place.inside_of_not_item rfl] at left order
  case case15 first more rest => exact (settled_range apart settled).imp_right .of_eq
  all_goals refine settled_other apart rfl rfl rfl rfl ?_
  case case2 opening rest _ => exact settled_bracketed [opening] settled order
  case case3 lead opening rest => exact settled_bracketed [lead, opening] settled order
  case case4 use opening rest => exact settled_bracketed [use, opening] settled order
  case case1 opening rest few =>
    have short : (opening :: rest).length ≤ 2 := Nat.succ_le_succ few
    rw [spare, if_pos short, ← List.flatMap_eq_nil_iff] at left
    exact ⟨by simp, .of_eq left.symm⟩
  all_goals
    simp only [List.mem_cons, List.not_mem_nil, or_false, forall_eq_or_imp, forall_eq, List.flatMap_cons,
      List.flatMap_nil, List.append_nil] at settled ⊢
  case case5 head | case6 head =>
    exact ⟨by simp, .of_eq (left head (by simp [spare])).symm⟩
  case case7 lead inputs result =>
    have nothing := left lead (by simp [spare])
    refine ⟨⟨rfl, settled.2⟩, .of_eq ?_⟩
    rw [nothing]
    rfl
  case case8 attributes operand dot spelling =>
    have nothing := left dot (by simp [spare])
    obtain ⟨each, none⟩ := settled_numberFields settled.2.2.1 nothing spelling
    refine ⟨⟨settled.1, settled.2.1, each⟩, .of_eq ?_⟩
    rw [none, nothing]
    rfl
  case case9 attributes type => exact ⟨⟨settled.1, rfl, rfl, settled.2⟩, .of_eq rfl⟩
  case case10 attributes visibility rest =>
    have nothing := left visibility (by simp [spare])
    refine ⟨⟨settled.1, rfl, settled.2.2⟩, .of_eq ?_⟩
    rw [nothing]
    rfl
  case case11 attributes name rest | case12 attributes name rest =>
    refine ⟨⟨settled.1, settled_fieldName settled.2.1, settled.2.2⟩, .of_eq ?_⟩
    rw [problems_fieldName]
  case case13 start dots stop =>
    split
    · rename_i dotted
      obtain ⟨joint, rfl⟩ := token_of_isPunct dotted
      exact ⟨⟨settled.1, rfl, settled.2.2⟩, .of_eq rfl⟩
    · exact ⟨settled, .of_eq rfl⟩
  case case14 first more parts =>
    have wrapped : binder.Settled place (group .paren [.node .rangePattern parts]) :=
      (settled_plain apart rfl rfl).mpr (List.forall_mem_singleton.mpr settled.2)
    have same : (binder.bind place (group .paren [.node .rangePattern parts])).2 =
        (binder.bind place (.node .rangePattern parts)).2 := by
      rw [group, problems_plain rfl rfl, List.flatMap_cons, List.flatMap_nil, List.append_nil]
    refine ⟨⟨settled.1, wrapped⟩, .of_eq ?_⟩
    rw [same]
  case case16 attributes word target value enclosedValue =>
    unfold enclosedValue
    split
    · refine ⟨⟨settled.1, settled.2.1, settled.2.2.1, ?_⟩, .of_eq ?_⟩
      · exact (settled_parenthesized apart).1.mpr ⟨by simp, settled.2.2.2⟩
      · rw [(settled_parenthesized apart).2]
        rfl
    · exact ⟨settled, .of_eq rfl⟩

/-! ### Parentheses in conditions -/

theorem enclosed_settled (apart : binder.settings.Apart) {tree : Tree} (settled : binder.Settled place tree)
    (context : OperandContext) : binder.Settled place (tree.enclosed context) ∧
      SameProblems ordered (binder.bind place (tree.enclosed context)).2 (binder.bind place tree).2 := by
  induction tree using Tree.byChildren generalizing place context with
  | token t => exact ⟨rfl, .of_eq rfl⟩
  | node kind children ih =>
      by_cases unread : kind = .unread
      · subst unread
        exact ⟨settled, .of_eq rfl⟩
      by_cases arguments : kind = .arguments
      · subst arguments
        exact ⟨settled, .of_eq rfl⟩
      obtain ⟨whole, unbound, below⟩ := (settled_iff apart arguments).mp settled
      have each : ∀ child ∈ children, ∀ context, binder.Replaces ordered
          (place.inside binder.root (.node kind children))
          (binder.bind (place.inside binder.root (.node kind children)) child).2 (child.enclosed context) child := by
        intro child member context
        obtain ⟨own, problems⟩ := ih child member (below child member) context
        exact ⟨enclosed_shows child context, enclosed_mirrors child context, own, problems⟩
      rw [problems_kept whole unbound]
      by_cases closure : kind = .closure
      · subst closure
        exact (settled_of_pairs apart arguments whole unbound (enclosedBody_pairs each context)).2.2
      have inner := (settled_of_pairs apart arguments whole unbound (enclosedAll_pairs each context kind 0)).2.2
      rcases enclosed_node unread arguments closure context children with same | ⟨rfl, same⟩
      · rw [same]
        exact inner
      · rw [same, (settled_parenthesized apart).1, (settled_parenthesized apart).2]
        exact ⟨⟨by simp, inner.1⟩, inner.2⟩

end Binder

end TestDouble
