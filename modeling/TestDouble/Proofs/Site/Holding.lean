import TestDouble.Proofs.Site.Location
/-!
# What stands where after binding

Binding puts nodes together again in place, so what it makes of a part stands where the part stood. What
an invocation is given is written anew in canonical form if it changed; then its tokens are those of
something that holds the part at the same position.
-/

namespace TestDouble

/--
A tree holds a part at a position. The arguments of an invocation hold what is held by anything that they
are the canonical writing of, or that has the same canonical writing.
-/
inductive HoldsAt : Tree → Position → Tree → Prop where
  | here (tree : Tree) : HoldsAt tree [] tree
  | child {kind : Kind} {children : List Tree} {index : Nat} {part found : Tree} {position : Position}
      (member : children[index]? = some part) (below : HoldsAt part position found) :
      HoldsAt (.node kind children) (index :: position) found
  | written {children read : List Tree} {index : Nat} {found : Tree} {position : Position}
      (same : Tree.tokensAll children = Tree.tokensAll (Tree.canonicalAll read) ∨
        Tree.tokensAll (Tree.canonicalAll children) = Tree.tokensAll (Tree.canonicalAll read))
      (below : HoldsAt (.node .arguments read) (index :: position) found) :
      HoldsAt (.node .arguments children) (index :: position) found

/-- What a tree holds is part of it, unless it stands in the arguments of an invocation. -/
theorem HoldsAt.at? {tree found : Tree} {position : Position} (held : HoldsAt tree position found)
    (read : tree.leadsThrough (fun node _ => node.kind? == some .arguments) position = false) :
    tree.at? position = some found := by
  induction held with
  | here tree => rfl
  | child member below ih =>
      exact Tree.at?_child.mpr ⟨_, member, ih ((Tree.leadsThrough_child read).2 _ member)⟩
  | written same below ih =>
      have none := (Tree.leadsThrough_child read).1
      cases none

namespace Settings

def marks (settings : Settings) (node : Tree) : Bool := (node.asCall?.map settings.isMarker).getD false

/-- Whether a step to a child leads into a configuration. -/
def entersConfiguration (settings : Settings) (node : Tree) (_ : Nat) : Bool :=
  Binder.isConfiguration settings node

/-- Whether a step to a child leads into what a creation site calls, or into its arguments. -/
def entersMarker (settings : Settings) (node : Tree) (index : Nat) : Bool :=
  settings.marks node && index != 0

/-- Whether a step to a child leads into the arguments of a creation site. -/
def entersArguments (settings : Settings) (node : Tree) (index : Nat) : Bool :=
  settings.marks node && index == 2

end Settings

namespace Binder

variable {binder : Binder}

theorem marks_iff {tree : Tree} : binder.settings.marks tree = true ↔ binder.Marks tree := by
  unfold Settings.marks Marks
  cases viewed : tree.asCall? with
  | none => simp
  | some call => simp

/-- Binding comes to what stands at a position that leads into no item, configuration or creation site. -/
theorem visits_at? {place : Place} {tree found : Tree} {position : Position}
    (foundAt : tree.at? position = some found) (free : tree.passesItem position = false)
    (kept : tree.leadsThrough binder.settings.entersConfiguration position = false)
    (apart : tree.leadsThrough binder.settings.entersMarker position = false) :
    Visits binder place tree position place found := by
  induction position generalizing tree with
  | nil =>
      cases foundAt
      exact .here place found
  | cons index rest ih =>
      cases tree with
      | token t => cases foundAt
      | node kind children =>
          obtain ⟨child, member, below⟩ := Tree.at?_child.mp foundAt
          obtain ⟨notItem, freeBelow⟩ := Bool.or_eq_false_iff.mp free
          rw [member] at freeBelow
          obtain ⟨whole, keptBelow⟩ := Tree.leadsThrough_child kept
          obtain ⟨outside, apartBelow⟩ := Tree.leadsThrough_child apart
          have inside := ih below freeBelow (keptBelow child member) (apartBelow child member)
          by_cases binds : binder.Binds place (.node kind children)
          · obtain ⟨rfl, attributes, callee, arguments, rfl, _⟩ := marks_call binds.1
            have first : index = 0 := by
              rw [Settings.entersMarker, marks_iff.mpr binds.1, Bool.true_and] at outside
              simpa using outside
            subst first
            cases member
            exact .attributes binds inside
          · refine .child ?_ binds member ?_
            · rintro ⟨_, _, configuration⟩
              have none : isConfiguration binder.settings (.node kind children) = false := whole
              rw [configuration] at none
              cases none
            · rw [Place.inside_of_not_item notItem]
              exact inside

theorem holds_rebuilt {place : Place} {kind : Kind} {children : List Tree} {index : Nat} {part found : Tree}
    {position : Position} (member : children[index]? = some part)
    (below : HoldsAt (binder.bind (place.inside binder.root (.node kind children)) part).1 position found) :
    HoldsAt (binder.rebuilt place kind children).1 (index :: position) found := by
  refine .child ?_ below
  rw [List.getElem?_map, List.getElem?_map, member]
  rfl

/-- Where binding comes to a part, what it makes of the part stands there afterwards. -/
theorem Visits.holds {place inner : Place} {tree found : Tree} {position : Position}
    (visited : Visits binder place tree position inner found)
    (apart : tree.leadsThrough binder.settings.entersMarker position = false) :
    HoldsAt (binder.bind place tree).1 position (binder.bind inner found).1 := by
  induction visited with
  | here place tree => exact .here _
  | @child place inner kind children index part found position whole unbound member below ih =>
      have inside := ih ((Tree.leadsThrough_child apart).2 part member)
      by_cases arguments : kind = .arguments
      · subst arguments
        have held : HoldsAt (binder.rebuilt place .arguments children).1 (index :: position)
            (binder.bind inner found).1 := holds_rebuilt member inside
        rw [bind_arguments]
        unfold invocationArguments
        simp only
        split
        · rename_i same
          exact .written (.inr same.symm) held
        · exact .written (.inl rfl) held
      · rw [bind_fst_kept whole unbound arguments]
        exact holds_rebuilt member inside
  | @attributes place inner attributes callee arguments found position bound below ih =>
      obtain ⟨key, own, children, last, _, _, _, _, same⟩ := bind_of_binds bound
      rw [same]
      exact .child rfl (ih ((Tree.leadsThrough_child apart).2 attributes rfl))
  | last bound kept below ih =>
      -- the last segment moves to another place of the path, but no position into it is admitted
      have none := (Tree.leadsThrough_child apart).1
      rw [Settings.entersMarker, marks_iff.mpr bound.1] at none
      cases none

theorem comes_of_located {module : Tree} {root : String} {items : List Tree}
    (inline : module.asModule? = some ⟨root, some items⟩) {test : Test} {position : Position} {call : Call}
    (located : Located binder.settings module items test position call)
    (kept : module.leadsThrough binder.settings.entersConfiguration position.inContent = false)
    (apart : module.leadsThrough binder.settings.entersMarker position.inContent = false) :
    binder.Comes ⟨[], none⟩ items position
      ⟨test.module, some (Name.key binder.root test.module test.function.name, Catalog.isTest test.function)⟩
      call.toTree := by
  obtain ⟨item, index, rest, statement, stands, viewed, statementAt, free⟩ := located.direct.placed
  have foundAt := located.found
  rw [stands.at? inline] at foundAt
  replace kept := stands.leadsThrough inline kept
  replace apart := stands.leadsThrough inline apart
  have entered := Place.inside_function viewed binder.root ⟨[] ++ test.module, none⟩
  obtain ⟨outer, visibility, signature, body, rfl, same⟩ := Tree.function_shape viewed
  rw [same] at statementAt
  obtain ⟨children, rfl, childAt⟩ := Tree.statement_at statementAt
  have statementFound : statement.at? rest = some call.toTree := by
    obtain ⟨_, bodyAt, inBody⟩ := Tree.at?_child.mp foundAt
    cases bodyAt
    obtain ⟨_, partAt, below⟩ := Tree.at?_child.mp inBody
    rw [childAt] at partAt
    cases partAt
    exact below
  have statementKept := (Tree.leadsThrough_child ((Tree.leadsThrough_child kept).2 _ rfl)).2 statement childAt
  have statementApart := (Tree.leadsThrough_child ((Tree.leadsThrough_child apart).2 _ rfl)).2 statement childAt
  refine (comes_iff stands).mpr ((visits_child_iff (by decide) (by decide)).mpr ⟨_, rfl, ?_⟩)
  rw [entered]
  refine (visits_child_iff (by decide) (by decide)).mpr ⟨statement, childAt, ?_⟩
  exact visits_at? statementFound free statementKept statementApart

end Binder

end TestDouble
