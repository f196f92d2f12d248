import TestDouble.Proofs.Catalog.Inline
import TestDouble.Proofs.Source.Reads
import TestDouble.Source.Grammar
/-!
# The names of traits

Of the declarations, a module may be called `try`, and no other is called by a word of the language. So no trait
that is read from source is called by one, in whatever module it stands.
-/

namespace TestDouble

namespace Parse

variable {α β : Type} {good : α → Prop}

/-- Whatever a reader finds is of a kind. -/
def Gives (p : Parse α) (good : α → Prop) : Prop :=
  ∀ input found after, p input = some (found, after) → good found

namespace Gives

theorem pure {found : α} (own : good found) : Gives (pure found) good := by
  rintro input found after ⟨⟩
  exact own

theorem fail : Gives (fail : Parse α) good := nofun

theorem bind {p : Parse β} {known : β → Prop} {next : β → Parse α} (first : Gives p known)
    (more : ∀ found, known found → Gives (next found) good) : Gives (p >>= next) good := by
  intro input found after runs
  obtain ⟨⟨one, middle⟩, read, onward⟩ := Option.bind_eq_some_iff.mp (show (p input).bind _ = _ from runs)
  exact more one (first _ _ _ read) middle found after onward

/-- What a reader finds on the way is often of no account. -/
theorem after {p : Parse β} {next : β → Parse α} (more : ∀ found, Gives (next found) good) :
    Gives (p >>= next) good := by
  have anything : Gives p fun _ => True := fun _ _ _ _ => trivial
  exact bind anything fun found _ => more found

theorem ite {condition : Prop} [Decidable condition] {p other : Parse α} (first : Gives p good)
    (second : Gives other good) : Gives (if condition then p else other) good := by
  split
  · exact first
  · exact second

theorem takeIf {condition : Tree → Bool} : Gives (takeIf condition) fun tree => condition tree = true := by
  intro input tree rest read
  unfold Parse.takeIf at read
  split at read
  · split at read
    · rename_i holds
      cases read
      exact holds
    · cases read
  · cases read

theorem op {text : String} : Gives (op text) fun tree => tree = Tree.punct text := by
  intro input tree rest read
  unfold Parse.op at read
  split at read
  · cases read
    rfl
  · cases read

theorem within {d : Delimiter} {p : Parse (List Tree)} {known : List Tree → Prop} (inside : Gives p known) :
    Gives (within d p) fun tree => ∃ children, tree = .group d children ∧ known children := by
  intro input tree rest read
  unfold Parse.within at read
  split at read
  · split at read
    · split at read
      · rename_i children found
        cases read
        exact ⟨children, rfl, inside _ _ _ found⟩
      · cases read
    · cases read
  · cases read

theorem iterateWith {step : β → Parse (Round β α)} (keeps : β → Prop) (good : α → Prop)
    (round : ∀ state, keeps state → Gives (step state) (Round.Keeps keeps good)) (fuel : Nat) (state : β) (start : keeps state) :
    Gives (iterateWith step fuel state) good := by
  induction fuel generalizing state with
  | zero => exact fail
  | succ fuel ih =>
      refine bind (round state start) fun next kept => ?_
      cases next with
      | again state => exact ih state kept
      | finish result => exact pure kept

theorem untilEnd {p : Parse Tree} {known : Tree → Prop} (each : Gives p known) :
    Gives (untilEnd p) fun trees => ∀ tree ∈ trees, known tree := by
  intro input trees rest read
  unfold Parse.untilEnd iterate at read
  refine iterateWith (fun found => ∀ tree ∈ found, known tree) (fun found => ∀ tree ∈ found, known tree)
    (fun found kept => ?_) (input.length + 1) [] nofun input trees rest read
  refine after fun ended => ite (pure ?_) (bind each fun one own => pure ?_)
  · exact fun tree member => kept tree (List.mem_reverse.mp member)
  · exact List.forall_mem_cons.mpr ⟨own, kept⟩

end Gives

end Parse

namespace Tree

/-- That no trait is called by a word of the language, be it an item or stand in the modules below it. -/
inductive NamesTraits : Tree → Prop where
  | mk {item : Tree} (own : ∀ contract, item.asTrait? = some contract → contract.name ∉ Parse.keywords)
      (below : ∀ name content, item.asModule? = some ⟨name, some content⟩ →
        ∀ inside ∈ content, NamesTraits inside) : NamesTraits item

theorem NamesTraits.own {item : Tree} (named : item.NamesTraits) {contract : TraitItem}
    (found : item.asTrait? = some contract) : contract.name ∉ Parse.keywords := by
  cases named with
  | mk own below => exact own contract found

theorem NamesTraits.content {item : Tree} (named : item.NamesTraits) {name : String} {content : List Tree}
    (module : item.asModule? = some ⟨name, some content⟩) : ∀ inside ∈ content, inside.NamesTraits := by
  cases named with
  | mk own below => exact below name content module

/-- Items that are neither traits nor modules name none. -/
theorem namesTraits_other {item : Tree} (notTrait : item.kind? ≠ some .itemTrait)
    (notModule : item.kind? ≠ some .itemMod) : item.NamesTraits := by
  refine .mk (fun contract found => ?_) fun name content module => ?_
  · obtain ⟨_, _, _, _, _, _, _, _, _, _, _, rfl, -⟩ := trait_shape found
    exact absurd rfl notTrait
  · obtain ⟨_, _, _, _, _, rfl⟩ := inline_module_shape module
    exact absurd rfl notModule

end Tree

namespace Grammar
open Parse

variable {g : Grammar} {attrs : Tree}

theorem traitHead_gives : Gives (traitHead g attrs) fun head => (head[5]?.map isName).getD false = true := by
  refine .after fun _ => .after fun _ => .after fun _ => .after fun _ => ?_
  exact .bind .takeIf fun own named => .after fun _ => .pure named

theorem traitRest_gives {head : List Tree} (named : (head[5]?.map isName).getD false = true) :
    Gives (traitRest g head) Tree.NamesTraits := by
  refine .after fun bounds => .after fun conditions => .after fun members => .pure (.mk ?_ nofun)
  intro contract found
  obtain ⟨own, atFive, isOwn⟩ : ∃ own, head[5]? = some own ∧ isName own = true := by
    cases atFive : head[5]? with
    | none => simp [atFive] at named
    | some own => exact ⟨own, rfl, by simpa [atFive] using named⟩
  obtain ⟨_, _, _, _, _, name, _, _, _, _, _, same, rfl⟩ := Tree.trait_shape found
  have front : (head ++ [bounds, conditions, members])[5]? = some own := by
    rw [List.getElem?_append_left (List.getElem?_eq_some_iff.mp atFive).1, atFive]
  rw [(Tree.node.inj same).2] at front
  cases front
  simpa [isName, Tree.ident] using isOwn

theorem itemTrait_gives : Gives (itemTrait g attrs) Tree.NamesTraits :=
  .bind traitHead_gives fun _ named => traitRest_gives named

theorem traitOrAlias_gives : Gives (traitOrAlias g attrs) Tree.NamesTraits := by
  refine .bind traitHead_gives fun head named => .after fun _ => .ite ?_ (traitRest_gives named)
  refine .after fun _ => .after fun _ => .after fun _ => .after fun _ => .pure ?_
  exact Tree.namesTraits_other nofun nofun

/-- That items in braces name their traits; a module without braces holds none. -/
def NamedContent (content : Tree) : Prop :=
  ∀ inner items, content = Tree.group .brace (inner :: items) → ∀ item ∈ items, item.NamesTraits

theorem members_give (named : Gives g.item Tree.NamesTraits) : Gives (members g g.item) NamedContent := by
  have inside : Gives (do
      let inner ← innerAttributes g
      return inner :: (← untilEnd g.item)) fun children =>
        ∀ inner items, children = inner :: items → ∀ item ∈ items, item.NamesTraits := by
    refine .after fun inner => .bind (.untilEnd named) fun items below => .pure ?_
    rintro _ _ ⟨⟩
    exact below
  intro input tree after read
  obtain ⟨children, rfl, below⟩ := Gives.within inside _ _ _ read
  rintro inner items ⟨⟩
  exact below inner items rfl

/-- The items of a module are read by the rule for items. -/
theorem itemMod_gives (named : Gives g.item Tree.NamesTraits) : Gives (itemMod g attrs) Tree.NamesTraits := by
  have ended : Gives semicolon NamedContent := by
    intro input tree after read
    cases Gives.op _ _ _ read
    nofun
  have result {front : List Tree} {own content : Tree} (below : NamedContent content) :
      (Tree.node .itemMod (front ++ [own, content])).NamesTraits := by
    refine .mk nofun fun name items module => ?_
    obtain ⟨attributes, visibility, unsafety, word, inner, shape⟩ := Tree.inline_module_shape module
    have last := congrArg List.getLast? (Tree.node.inj shape).2
    rw [List.getLast?_append] at last
    exact below inner items (Option.some.inj last)
  refine .after fun front => .after fun unsafety => .after fun word => .after fun early => .ite ?_ ?_
  all_goals
    refine .after fun own => .after fun seen => .ite (.bind ended fun content below => .pure (result below)) ?_
    exact .bind (members_give named) fun content below => .pure (result below)

/-! ### Other items -/

theorem unreadSince_gives {before : List Tree} : Gives (unreadSince attrs before) Tree.NamesTraits :=
  .after fun _ => .pure (Tree.namesTraits_other nofun nofun)

/-- The other items are nodes of kinds of their own, or are kept unread. -/
theorem otherItems_give : Gives (itemForeign g attrs) Tree.NamesTraits ∧ Gives (itemCrate attrs) Tree.NamesTraits ∧
    Gives (itemUse g attrs) Tree.NamesTraits ∧ Gives (itemStatic g attrs) Tree.NamesTraits ∧
    Gives (itemConst g attrs) Tree.NamesTraits ∧ Gives (itemType g attrs) Tree.NamesTraits ∧
    Gives (itemImpl g attrs) Tree.NamesTraits := by
  refine ⟨?_, ?_, ?_, ?_, ?_, ?_, ?_⟩
  all_goals
    repeat' first
      | exact unreadSince_gives
      | exact .pure (Tree.namesTraits_other nofun nofun)
      | exact .fail
      | refine .ite ?_ ?_
      | refine .after fun _ => ?_

theorem itemWith_gives (named : Gives g.item Tree.NamesTraits) : Gives (itemWith g attrs) Tree.NamesTraits := by
  obtain ⟨foreign, crate, imports, static, constant, type, implementation⟩ :
    Gives (itemForeign g attrs) Tree.NamesTraits ∧ _ := otherItems_give
  have trait : Gives (itemTrait g attrs) Tree.NamesTraits := itemTrait_gives
  have module : Gives (itemMod g attrs) Tree.NamesTraits := itemMod_gives named
  refine .after fun trees => ?_
  refine .ite ?function (.ite (.ite crate foreign) (.ite imports (.ite static (.ite constant ?rest))))
  case function =>
    refine .after fun _ => .after fun _ => .after fun _ => .ite unreadSince_gives (.pure ?_)
    exact Tree.namesTraits_other nofun nofun
  case rest =>
    refine .ite (.ite trait (.ite implementation (.ite foreign (.ite module .fail)))) ?_
    refine .ite module (.ite type (.ite ?struct (.ite ?enum (.ite ?union ?_))))
    case struct =>
      refine .after fun _ => .after fun _ => .after fun _ => .after fun _ => .after fun _ => .pure ?_
      exact Tree.namesTraits_other nofun nofun
    case enum =>
      refine .after fun _ => .after fun _ => .after fun _ => .after fun _ => .after fun _ => .after fun _ => .pure ?_
      exact Tree.namesTraits_other nofun nofun
    case union =>
      refine .after fun _ => .after fun _ => .after fun _ => .after fun _ => .after fun _ => .after fun _ => .pure ?_
      exact Tree.namesTraits_other nofun nofun
    refine .ite traitOrAlias_gives (.ite trait (.ite implementation (.ite ?rules (.after fun _ => .ite ?invoked .fail))))
    case rules =>
      refine .after fun _ => .after fun _ => .after fun _ => .after fun _ => .after fun _ => .ite ?_ ?_
      · exact .after fun _ => unreadSince_gives
      · exact .after fun _ => .after fun _ => unreadSince_gives
    case invoked =>
      exact .after fun _ => .pure (Tree.namesTraits_other nofun nofun)

theorem itemRule_gives (named : Gives g.item Tree.NamesTraits) : Gives (itemRule g) Tree.NamesTraits :=
  .after fun _ => itemWith_gives named

theorem item_gives (level : Nat) : Gives (bounded level).item Tree.NamesTraits := by
  induction level with
  | zero => exact .fail
  | succ level ih => exact itemRule_gives ih

end Grammar

/-- No trait of a module that is read from source is called by a word of the language. -/
theorem Tree.namesTraits_readModule {text : String} {module : Tree} (read : readModule text = some module) :
    module.NamesTraits := by
  unfold readModule Grammar.readText at read
  obtain ⟨trees, scanned, found⟩ := Option.bind_eq_some_iff.mp read
  unfold Grammar.readAll Parse.complete at found
  split at found
  · rename_i result taken
    cases found
    exact (Parse.Gives.after fun _ => Grammar.itemMod_gives (Grammar.item_gives _)) _ _ _ taken
  · cases found

end TestDouble
