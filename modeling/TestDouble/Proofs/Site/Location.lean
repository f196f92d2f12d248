import TestDouble.Proofs.Site.Placement
/-!
# Where creation sites stand

A creation site found in the body of a test stands at a position of the annotated module. Unless the
position leads into a configuration, or into another creation site other than through its attributes, the
walk of binding comes to it.
-/

namespace TestDouble

namespace Tree

/-- The part of a tree at a position. -/
def at? : Tree → Position → Option Tree
  | tree, [] => some tree
  | .token _, _ :: _ => none
  | .node _ children, index :: rest => children[index]?.bind fun child => child.at? rest

/-- Whether a position leads through a node into one of its children in a way that has a property. -/
def leadsThrough (property : Tree → Nat → Bool) : Tree → Position → Bool
  | _, [] => false
  | .token _, _ :: _ => false
  | .node kind children, index :: rest =>
    property (.node kind children) index ||
      (children[index]?.map fun child => child.leadsThrough property rest).getD false

theorem at?_child {kind : Kind} {children : List Tree} {index : Nat} {rest : Position} {found : Tree} :
    (Tree.node kind children).at? (index :: rest) = some found ↔
      ∃ child, children[index]? = some child ∧ child.at? rest = some found := by
  rw [at?, Option.bind_eq_some_iff]

theorem leadsThrough_child {property : Tree → Nat → Bool} {kind : Kind} {children : List Tree} {index : Nat}
    {rest : Position} (clear : (Tree.node kind children).leadsThrough property (index :: rest) = false) :
    property (.node kind children) index = false ∧
      ∀ child, children[index]? = some child → child.leadsThrough property rest = false := by
  obtain ⟨own, below⟩ := Bool.or_eq_false_iff.mp clear
  refine ⟨own, fun child member => ?_⟩
  rw [member] at below
  exact below

theorem wellFormed_at? {tree found : Tree} {position : Position} (formed : tree.wellFormed = true)
    (foundAt : tree.at? position = some found) : found.wellFormed = true := by
  induction position generalizing tree with
  | nil =>
      cases foundAt
      exact formed
  | cons index rest ih =>
      cases tree with
      | token t => cases foundAt
      | node kind children =>
          obtain ⟨child, member, below⟩ := at?_child.mp foundAt
          exact ih (wellFormed_child formed (List.mem_of_getElem? member)) below

end Tree

/-! ### What is found in one tree after another -/

namespace Position

variable {α : Type} {found : Tree → List (Position × α)}

/-- What is found in some trees, in order. In front of each position stands the number of the tree. -/
def numbered (found : Tree → List (Position × α)) (index : Nat) : List Tree → List (Position × α)
  | [] => []
  | tree :: rest => (found tree).map (fun own => (index :: own.1, own.2)) ++ numbered found (index + 1) rest

theorem mem_numbered {trees : List Tree} {index : Nat} {position : Position} {value : α} :
    (position, value) ∈ numbered found index trees ↔
      ∃ number rest tree, position = (index + number) :: rest ∧ trees[number]? = some tree ∧
        (rest, value) ∈ found tree := by
  induction trees generalizing index with
  | nil =>
      constructor
      · intro member
        cases member
      · rintro ⟨_, _, _, _, found, _⟩
        cases found
  | cons first trees ih =>
      rw [numbered, List.mem_append, ih]
      constructor
      · rintro (own | ⟨number, rest, tree, rfl, found, below⟩)
        · obtain ⟨⟨rest, value⟩, below, same⟩ := List.mem_map.mp own
          cases same
          exact ⟨0, rest, first, rfl, rfl, below⟩
        · exact ⟨number + 1, rest, tree, by rw [Nat.add_right_comm, Nat.add_assoc], found, below⟩
      · rintro ⟨number, rest, tree, rfl, found, below⟩
        cases number with
        | zero =>
            cases found
            exact .inl (List.mem_map.mpr ⟨(rest, value), below, rfl⟩)
        | succ number => exact .inr ⟨number, rest, tree, by rw [Nat.add_right_comm, Nat.add_assoc], found, below⟩

theorem numbered_values (index : Nat) (trees : List Tree) :
    (numbered found index trees).map Prod.snd = trees.flatMap fun tree => (found tree).map Prod.snd := by
  induction trees generalizing index with
  | nil => rfl
  | cons first rest ih =>
      rw [numbered, List.map_append, List.map_map, ih, List.flatMap_cons]
      rfl

/-- A relation that goes by the first numbers that differ passes from what is found in each tree to the whole. -/
theorem numbered_pairwise {related : Position → Position → Prop}
    (deeper : ∀ {index one other}, related one other → related (index :: one) (index :: other))
    (apart : ∀ {index next one other}, index < next → related (index :: one) (next :: other)) {trees : List Tree}
    (each : ∀ tree ∈ trees, (found tree).Pairwise fun one other => related one.1 other.1) (index : Nat) :
    (numbered found index trees).Pairwise fun one other => related one.1 other.1 := by
  induction trees generalizing index with
  | nil => exact .nil
  | cons first rest ih =>
      rw [numbered]
      refine List.pairwise_append.mpr ⟨?_, ih (fun tree member => each tree (List.mem_cons_of_mem _ member)) _, ?_⟩
      · exact List.pairwise_map.mpr ((each first List.mem_cons_self).imp deeper)
      · rintro own here ⟨position, value⟩ later
        obtain ⟨_, _, rfl⟩ := List.mem_map.mp here
        obtain ⟨_, _, _, rfl, _⟩ := mem_numbered.mp later
        exact apart (by omega)

end Position

/-! ### The creation sites of a body -/

namespace Site

variable {settings : Settings} {call : Call}

theorem mem_ofNode {tree : Tree} :
    marker call ∈ (ofNode settings tree).toList ↔ settings.isMarker call = true ∧ tree = call.toTree := by
  rw [Option.mem_toList, ← Call.asCall?_iff]
  unfold ofNode
  cases viewed : tree.asCall? with
  | some other =>
      by_cases marks : settings.isMarker other = true
      · simp only [marks, if_true, Site.marker.injEq, Option.some.injEq]
        constructor
        · rintro rfl
          exact ⟨marks, rfl⟩
        · exact fun both => both.2
      · simp only [marks, Option.some.injEq]
        constructor
        · intro none
          cases none
        · rintro ⟨own, rfl⟩
          exact absurd own marks
  | none =>
      simp only
      constructor
      · intro configured
        split at configured
        · obtain ⟨method, _, other⟩ := Option.map_eq_some_iff.mp configured
          cases other
        · cases configured
      · intro none
        cases none.2

mutual

/-- What is found in a tree, in the same order, with the positions. -/
def placed (settings : Settings) : Tree → List (Position × Site)
  | .token _ => []
  | .node kind children =>
    if isItem kind then []
    else (ofNode settings (.node kind children)).toList.map (([], ·)) ++ placedFrom settings 0 children

def placedFrom (settings : Settings) (index : Nat) : List Tree → List (Position × Site)
  | [] => []
  | tree :: rest =>
    (placed settings tree).map (fun own => (index :: own.1, own.2)) ++ placedFrom settings (index + 1) rest

end

theorem placedFrom_eq_numbered (index : Nat) (trees : List Tree) :
    placedFrom settings index trees = Position.numbered (placed settings) index trees := by
  induction trees generalizing index with
  | nil => rfl
  | cons first rest ih => rw [placedFrom, Position.numbered, ih]

theorem mem_placedFrom {trees : List Tree} {index : Nat} {position : Position} {site : Site} :
    (position, site) ∈ placedFrom settings index trees ↔
      ∃ number rest tree, position = (index + number) :: rest ∧ trees[number]? = some tree ∧
        (rest, site) ∈ placed settings tree := by
  rw [placedFrom_eq_numbered, Position.mem_numbered]

/-- The positions are those outside of items, where something to be found stands. -/
theorem mem_placed {tree : Tree} {position : Position} {site : Site} :
    (position, site) ∈ placed settings tree ↔
      tree.passesItem position = false ∧ ∃ part, tree.at? position = some part ∧ ofNode settings part = some site := by
  induction tree using Tree.byChildren generalizing position with
  | token t =>
      constructor
      · intro member
        cases member
      · rintro ⟨_, part, found, own⟩
        cases position with
        | nil =>
            cases found
            cases own
        | cons index rest => cases found
  | node kind children ih =>
      rw [placed]
      cases item : isItem kind with
      | true =>
          rw [if_pos rfl]
          constructor
          · intro member
            cases member
          · rintro ⟨free, _⟩
            cases position with
            | nil => rw [Tree.passesItem, item] at free; cases free
            | cons index rest => rw [Tree.passesItem, item] at free; cases free
      | false =>
          rw [if_neg Bool.false_ne_true, List.mem_append, mem_placedFrom]
          constructor
          · rintro (own | ⟨index, rest, child, rfl, member, below⟩)
            · obtain ⟨site, found, same⟩ := List.mem_map.mp own
              cases same
              exact ⟨item, _, rfl, Option.mem_toList.mp found⟩
            · obtain ⟨free, part, found, own⟩ := (ih child (List.mem_of_getElem? member)).mp below
              rw [Nat.zero_add]
              refine ⟨?_, part, Tree.at?_child.mpr ⟨child, member, found⟩, own⟩
              rw [Tree.passesItem, item, member]
              exact free
          · rintro ⟨free, part, found, own⟩
            cases position with
            | nil =>
                cases found
                exact .inl (List.mem_map.mpr ⟨site, Option.mem_toList.mpr own, rfl⟩)
            | cons index rest =>
                obtain ⟨child, member, below⟩ := Tree.at?_child.mp found
                have inside := (Bool.or_eq_false_iff.mp free).2
                rw [member] at inside
                have deeper := (ih child (List.mem_of_getElem? member)).mpr ⟨inside, part, below, own⟩
                exact .inr ⟨index, rest, child, by rw [Nat.zero_add], member, deeper⟩

theorem placed_sites (tree : Tree) : (placed settings tree).map Prod.snd = ofTree settings tree := by
  induction tree using Tree.byChildren with
  | token t => rfl
  | node kind children ih =>
      rw [placed, ofTree]
      split
      · rfl
      · rw [List.map_append, List.map_map, placedFrom_eq_numbered, Position.numbered_values, ofTrees_eq_flatMap,
          List.flatMap_congr ih]
        exact congrArg (· ++ children.flatMap (ofTree settings)) (List.map_id _)

theorem placedFrom_sites (index : Nat) (trees : List Tree) :
    (placedFrom settings index trees).map Prod.snd = ofTrees settings trees := by
  rw [placedFrom_eq_numbered, Position.numbered_values, ofTrees_eq_flatMap]
  exact List.flatMap_congr fun tree _ => placed_sites tree

/-- A creation site is found in a tree exactly if it stands in it and not inside of an item. -/
theorem mem_ofTree {tree : Tree} :
    marker call ∈ ofTree settings tree ↔
      settings.isMarker call = true ∧
        ∃ position, tree.passesItem position = false ∧ tree.at? position = some call.toTree := by
  rw [← placed_sites, List.mem_map]
  constructor
  · rintro ⟨⟨position, site⟩, member, rfl⟩
    obtain ⟨free, part, found, own⟩ := mem_placed.mp member
    obtain ⟨marks, rfl⟩ := mem_ofNode.mp (Option.mem_toList.mpr own)
    exact ⟨marks, position, free, found⟩
  · rintro ⟨marks, position, free, found⟩
    have own := Option.mem_toList.mp (mem_ofNode.mpr ⟨marks, rfl⟩)
    exact ⟨(position, marker call), mem_placed.mpr ⟨free, call.toTree, found, own⟩, rfl⟩

end Site

theorem Sites.mem_markers {settings : Settings} {body : Tree} {call : Call} :
    call ∈ (ofBody settings body).markers ↔
      settings.isMarker call = true ∧
        ∃ (index : Nat) (rest : Position) (statement : Tree), body.statements[index]? = some statement ∧
          statement.passesItem rest = false ∧ statement.at? rest = some call.toTree := by
  have found : call ∈ (ofBody settings body).markers ↔
      Site.marker call ∈ Site.ofTrees settings body.statements := by
    unfold markers ofBody
    rw [List.mem_filterMap]
    constructor
    · rintro ⟨site, member, own⟩
      split at own
      · cases own
        exact member
      · cases own
    · intro member
      exact ⟨_, member, rfl⟩
  rw [found, Site.ofTrees_eq_flatMap, List.mem_flatMap]
  constructor
  · rintro ⟨statement, member, below⟩
    obtain ⟨marks, rest, free, foundAt⟩ := Site.mem_ofTree.mp below
    obtain ⟨index, statementAt⟩ := List.getElem?_of_mem member
    exact ⟨marks, index, rest, statement, statementAt, free, foundAt⟩
  · rintro ⟨marks, index, rest, statement, statementAt, free, foundAt⟩
    exact ⟨statement, List.mem_of_getElem? statementAt, Site.mem_ofTree.mpr ⟨marks, rest, free, foundAt⟩⟩

/-! ### Positions in the annotated module -/

/-- The position in a module item of what stands at a position in its content. -/
def Position.inContent : Position → Position
  | [] => []
  | index :: rest => 5 :: (index + 1) :: rest

theorem Stands.at? {items : List Tree} {position rest : Position} {path : ModulePath} {item : Tree}
    (stands : Stands items position path item rest) {module : Tree} {name : String}
    (inline : module.asModule? = some ⟨name, some items⟩) :
    module.at? position.inContent = item.at? rest := by
  induction stands generalizing module name with
  | @item items index item member rest =>
      obtain ⟨attributes, visibility, unsafety, word, inner, rfl⟩ := Tree.inline_module_shape inline
      show items[index]?.bind (fun child => child.at? rest) = item.at? rest
      rw [member]
      rfl
  | @inner items content index next outer item own path position rest member opened below ih =>
      obtain ⟨attributes, visibility, unsafety, word, inner, rfl⟩ := Tree.inline_module_shape inline
      show items[index]?.bind (fun child => child.at? (5 :: (next + 1) :: position)) = item.at? rest
      rw [member]
      exact ih opened

theorem Stands.leadsThrough {property : Tree → Nat → Bool} {items : List Tree} {position rest : Position}
    {path : ModulePath} {item : Tree} (stands : Stands items position path item rest) {module : Tree}
    {name : String} (inline : module.asModule? = some ⟨name, some items⟩)
    (clear : module.leadsThrough property position.inContent = false) :
    item.leadsThrough property rest = false := by
  induction stands generalizing module name with
  | @item items index item member rest =>
      obtain ⟨attributes, visibility, unsafety, word, inner, rfl⟩ := Tree.inline_module_shape inline
      have body := (Tree.leadsThrough_child clear).2 _ rfl
      exact (Tree.leadsThrough_child body).2 item member
  | @inner items content index next outer item own path position rest member opened below ih =>
      obtain ⟨attributes, visibility, unsafety, word, inner, rfl⟩ := Tree.inline_module_shape inline
      have body := (Tree.leadsThrough_child clear).2 _ rfl
      exact ih opened ((Tree.leadsThrough_child body).2 outer member)

theorem Inline.stands {items content : List Tree} {path : ModulePath} (reached : Inline items path content)
    {index : Nat} {item : Tree} (member : content[index]? = some item) (rest : Position) :
    ∃ first more, Stands items (first :: more) path item rest := by
  induction reached with
  | here items => exact ⟨index, rest, .item member rest⟩
  | inner outerIn opened below ih =>
      obtain ⟨first, more, stands⟩ := ih member
      obtain ⟨outerIndex, outerAt⟩ := List.getElem?_of_mem outerIn
      exact ⟨outerIndex, 5 :: (first + 1) :: more, .inner outerAt opened stands⟩

/-- That a creation site of a test stands at a position in the content of the annotated module. -/
structure Located (settings : Settings) (module : Tree) (items : List Tree) (test : Test)
    (position : Position) (call : Call) : Prop where
  direct : Direct items position test.module test.function
  found : module.at? position.inContent = some call.toTree
  marks : settings.isMarker call = true

/-- Every creation site that is found in the body of a test stands somewhere. -/
theorem located_of_mem {settings : Settings} {module : Tree} {root : String} {items : List Tree}
    (inline : module.asModule? = some ⟨root, some items⟩) {test : Test}
    (member : test ∈ (Catalog.ofItems root items).tests) {call : Call}
    (found : call ∈ (Sites.ofBody settings test.function.body).markers) :
    ∃ first more, Located settings module items test (first :: more) call := by
  obtain ⟨marks, index, rest, statement, statementAt, free, foundAt⟩ := Sites.mem_markers.mp found
  obtain ⟨content, reached, item, itemIn, viewed, _⟩ := Catalog.mem_tests.mp member
  obtain ⟨itemIndex, itemAt⟩ := List.getElem?_of_mem itemIn
  obtain ⟨first, more, stands⟩ := reached.stands itemAt (3 :: (index + 1) :: rest)
  refine ⟨first, more, ⟨item, index, rest, statement, stands, viewed, statementAt, free⟩, ?_, marks⟩
  obtain ⟨outer, visibility, signature, body, rfl, same⟩ := Tree.function_shape viewed
  rw [stands.at? inline]
  rw [same] at statementAt
  obtain ⟨children, rfl, childAt⟩ := Tree.statement_at statementAt
  show children[index + 1]?.bind (fun child => child.at? rest) = some call.toTree
  rw [childAt]
  exact foundAt

theorem Located.mem {settings : Settings} {module : Tree} {root : String} {items : List Tree}
    (inline : module.asModule? = some ⟨root, some items⟩) {test : Test} {position : Position} {call : Call}
    (located : Located settings module items test position call) :
    call ∈ (Sites.ofBody settings test.function.body).markers := by
  obtain ⟨item, index, rest, statement, stands, viewed, statementAt, free⟩ := located.direct.placed
  refine Sites.mem_markers.mpr ⟨located.marks, index, rest, statement, statementAt, free, ?_⟩
  have foundAt := located.found
  rw [stands.at? inline] at foundAt
  obtain ⟨outer, visibility, signature, body, rfl, same⟩ := Tree.function_shape viewed
  rw [same] at statementAt
  obtain ⟨children, rfl, childAt⟩ := Tree.statement_at statementAt
  obtain ⟨_, bodyAt, inBody⟩ := Tree.at?_child.mp foundAt
  cases bodyAt
  obtain ⟨_, partAt, below⟩ := Tree.at?_child.mp inBody
  rw [childAt] at partAt
  cases partAt
  exact below

end TestDouble
